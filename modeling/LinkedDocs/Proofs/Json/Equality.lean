import LinkedDocs.Json.Value
import LinkedDocs.Proofs.Sorted
import Mathlib.Data.List.Sort

/-!
# Equal values

Values are equal for the engine if their normal forms are, and the normal form of an object is known
by what is found under each name (`SortedByName.eq_of_find_eq`). So objects with equal members are
equal, in whatever order these stand (`Value.SameFields.same`).
-/

namespace LinkedDocs

/-! ## The two zeros -/

theorem Double.eq_zero_of_isZero {x : Double} (h : x.isZero = true) : x = .zero x.negative := by
  obtain ⟨negative, significand, scale, _, _, hcanonical⟩ := x
  have hsignificand : significand = 0 := eq_of_beq h
  subst hsignificand
  have hscale : scale = 0 := hcanonical.resolve_right (by decide)
  subst hscale
  rfl

theorem Number.units_unsignedZero (n : Number) : n.unsignedZero.units = n.units := by
  cases n with
  | integer k => rfl
  | real x =>
    show x.unsignedZero.units = x.units
    unfold Double.unsignedZero
    split
    · next h =>
      rw [Double.eq_zero_of_isZero h]
      cases x.negative <;> rfl
    · rfl

/-! ## Members in any order -/

/-- A sorted list of members is known by what is found in it. -/
theorem SortedByName.eq_of_find_eq {α : Type} {entries entries' : List (String × α)}
    (hsorted : SortedByName entries) (hsorted' : SortedByName entries')
    (h : ∀ name, entries.lookup name = entries'.lookup name) : entries = entries' := by
  have hnodup : (entries.map Prod.fst).Nodup := hsorted.imp fun hlt => (Std.ne_of_lt hlt)
  have hnodup' : (entries'.map Prod.fst).Nodup := hsorted'.imp fun hlt => (Std.ne_of_lt hlt)
  let before (x y : String × α) : Prop := x.1 < y.1
  have hirrefl : Std.Irrefl before := ⟨fun x => Std.lt_irrefl⟩
  have hantisymm : Std.Antisymm before := ⟨fun x y hxy hyx =>
    absurd (Std.lt_trans hxy hyx) Std.lt_irrefl⟩
  have hbefore : entries.Pairwise before := List.pairwise_map.mp hsorted
  have hbefore' : entries'.Pairwise before := List.pairwise_map.mp hsorted'
  refine hbefore.eq_of_mem_iff hbefore' ?_
  intro pair
  constructor
  · intro hmem
    exact Dict.mem_of_lookup ((h pair.1).symm.trans (Dict.lookup_of_mem hnodup hmem))
  · intro hmem
    exact Dict.mem_of_lookup ((h pair.1).trans (Dict.lookup_of_mem hnodup' hmem))

namespace Value

theorem sortedByName_normalMembers (members : List (String × Value)) :
    SortedByName (normalMembers members) := by
  induction members with
  | nil => exact .nil
  | cons member rest ih =>
    obtain ⟨name, value⟩ := member
    rw [normalMembers, SortedByName, keys_insertMissing]
    exact pairwise_insertName name ih

/-- Where no name is repeated, the normal form of an object has the normal forms of the members. -/
theorem find_normalMembers {members : List (String × Value)} (h : (members.map Prod.fst).Nodup)
    (name : String) :
    List.lookup name (normalMembers members) = (members.lookup name).map normal := by
  induction members with
  | nil => rfl
  | cons member rest ih =>
    obtain ⟨key, value⟩ := member
    obtain ⟨hnew, hrest⟩ : key ∉ rest.map Prod.fst ∧ (rest.map Prod.fst).Nodup := by simpa using h
    rw [normalMembers, Dict.lookup_cons]
    by_cases hkey : key = name
    · subst hkey
      have hmissing : List.lookup key (normalMembers rest) = none := by
        rw [ih hrest, (Dict.lookup_eq_none_iff key rest).mpr hnew]
        rfl
      rw [if_pos rfl, lookup_insertMissing_of_none hmissing]
      rfl
    · rw [if_neg hkey, lookup_insertMissing_of_ne (Ne.symm hkey), ih hrest]

/-- Equal values, as a relation. -/
def Same (v w : Value) : Prop := v.same w = true

/-- Fields with equal values, in whatever order. -/
def SameFields (f g : Fields) : Prop := ∀ name, Option.Rel Same (f.get? name) (g.get? name)

theorem SameFields.same {f g : Fields} (h : SameFields f g) : Same (.ofFields f) (.ofFields g) := by
  rw [Same, same_iff]
  show Value.object (normalMembers f.entries) = .object (normalMembers g.entries)
  refine congrArg Value.object ?_
  refine (sortedByName_normalMembers f.entries).eq_of_find_eq (sortedByName_normalMembers g.entries)
    fun name => ?_
  rw [find_normalMembers f.nodup, find_normalMembers g.nodup]
  have hname := h name
  unfold Dict.get? at hname
  generalize f.entries.lookup name = found at hname ⊢
  generalize g.entries.lookup name = found' at hname ⊢
  cases hname with
  | none => rfl
  | some hsame => exact congrArg some ((same_iff _ _).mp hsame)

theorem isNull_normal (v : Value) : v.normal.isNull = v.isNull := by
  cases v <;> rfl

theorem Same.isNull {v w : Value} (h : Same v w) : v.isNull = w.isNull := by
  rw [← isNull_normal v, ← isNull_normal w, (same_iff v w).mp h]

end Value

end LinkedDocs
