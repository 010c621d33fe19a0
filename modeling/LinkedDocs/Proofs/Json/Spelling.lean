import LinkedDocs.Json.Printer
import LinkedDocs.Json.Reader
import LinkedDocs.Proofs.Json.Equality

/-!
# The texts of equal values

Equal values may be written differently: members in another order, a zero with the other sign. Then
their texts differ too, as no text of one starts a text of the other:

> `Value.Same.eq_of_text_eq`: equal values with one text are the same value.

A printed string is read back up to its closing quote (`unitsAndRest?_flatMap_escapedChar`), so two
texts that go on with different names are different. From there the values are followed member by
member. This needs that no object repeats a name, which holds of every value that is read
(`Value.namesDistinct_of_ofText?`).
-/

namespace LinkedDocs

namespace Json

/-! ## Strings -/

/-- A character is escaped by a letter, by its number, or not at all. -/
theorem escapedChar_cases (c : Char) :
    (∃ e, escapedChar c = ['\\', e] ∧ simpleEscape? e = some c) ∨
    (escapedChar c = ['\\', 'u', '0', '0', hexDigit (c.toNat / 16), hexDigit c.toNat] ∧
      c.toNat < 0x20) ∨
    (escapedChar c = [c] ∧ c ≠ '"' ∧ c ≠ '\\' ∧ ¬ c.toNat < 0x20) := by
  unfold escapedChar
  split
  case h_8 hquote hbackslash _ _ _ _ _ =>
    split
    · next hcontrol => exact .inr (.inl ⟨rfl, hcontrol⟩)
    · next hcontrol => exact .inr (.inr ⟨rfl, hquote, hbackslash, hcontrol⟩)
  all_goals exact .inl ⟨_, rfl, rfl⟩

theorem unitOfHex?_control {n : Nat} (h : n < 0x20) :
    unitOfHex? '0' '0' (hexDigit (n / 16)) (hexDigit n) = some (.char (Char.ofNat n)) := by
  have hall : ∀ m : Fin 0x20, unitOfHex? '0' '0' (hexDigit (m / 16)) (hexDigit m)
      = some (.char (Char.ofNat m)) := by decide
  exact hall ⟨n, h⟩

/-- The units of a string up to its closing quote, and the text after it. -/
def unitsAndRest? (text : List Char) : Option (List StringUnit × List Char) :=
  (stringUnits? text).map fun (units, rest) => (units, rest.val)

/-- An escaped character is read back. -/
theorem unitsAndRest?_escapedChar (c : Char) (text : List Char) :
    unitsAndRest? (escapedChar c ++ text)
      = (unitsAndRest? text).map fun (units, rest) => (.char c :: units, rest) := by
  unfold unitsAndRest?
  obtain ⟨e, hc, he⟩ | ⟨hc, hcontrol⟩ | ⟨hc, hquote, hbackslash, hcontrol⟩ := escapedChar_cases c
  · have hu : e ≠ 'u' := by
      rintro rfl
      cases he
    rw [hc]
    simp only [List.cons_append, List.nil_append]
    rw [stringUnits?, he]
    · cases stringUnits? text <;> rfl
    · exact fun _ _ _ _ _ h => absurd h hu
  · rw [hc]
    simp only [List.cons_append, List.nil_append]
    rw [stringUnits?, unitOfHex?_control hcontrol, Char.ofNat_toNat]
    cases stringUnits? text <;> rfl
  · rw [hc, List.singleton_append, stringUnits?]
    rw [if_neg (by simp [hcontrol, hbackslash])]
    · cases stringUnits? text <;> rfl
    · exact hquote
    · exact fun _ _ _ _ _ h => absurd h hbackslash
    · exact fun _ _ h => absurd h hbackslash

/-- A printed string is read back, up to its closing quote. -/
theorem unitsAndRest?_flatMap_escapedChar (chars rest : List Char) :
    unitsAndRest? (chars.flatMap escapedChar ++ '"' :: rest)
      = some (chars.map StringUnit.char, rest) := by
  induction chars with
  | nil => rfl
  | cons c chars ih =>
    rw [List.flatMap_cons, List.append_assoc, unitsAndRest?_escapedChar, ih]
    rfl

/-- Of two texts that start with printed strings and are equal, these strings are equal, and so is
what follows them. -/
theorem stringText_append_inj {s t : String} {rest rest' : List Char}
    (h : stringText s ++ rest = stringText t ++ rest') : s = t ∧ rest = rest' := by
  have hread : ∀ (s : String) (rest : List Char), unitsAndRest? (stringText s ++ rest).tail
      = some (s.toList.map StringUnit.char, rest) := by
    intro s rest
    rw [← unitsAndRest?_flatMap_escapedChar, stringText]
    simp
  have hboth := hread s rest
  rw [h, hread t rest'] at hboth
  simp only [Option.some.injEq, Prod.mk.injEq] at hboth
  obtain ⟨hunits, hrest⟩ := hboth
  have hchars := List.map_injective_iff.mpr (fun _ _ h => StringUnit.char.inj h) hunits
  exact ⟨(String.toList_inj.mp hchars).symm, hrest.symm⟩

end Json

open Json (stringText stringText_append_inj)

/-! ## Numbers -/

theorem Double.toList_text_zero (negative : Bool) :
    (zero negative).text.toList = if negative then ['-', '0', '.', '0'] else ['0', '.', '0'] :=
  String.toList_ofList

/-- Numbers that are equal but for the sign of zero are equal if the text shows no other sign. -/
theorem Double.eq_of_text_append {x y : Double} (hsame : x.unsignedZero = y.unsignedZero)
    {rest rest' : List Char} (h : x.text.toList ++ rest = y.text.toList ++ rest') : x = y := by
  unfold unsignedZero at hsame
  split at hsame
  · next hx =>
    split at hsame
    · next hy =>
      rw [eq_zero_of_isZero hx, eq_zero_of_isZero hy] at h ⊢
      rw [toList_text_zero, toList_text_zero] at h
      revert h
      cases x.negative <;> cases y.negative <;> simp
    · next hy => exact absurd (congrArg isZero hsame.symm) hy
  · next hx =>
    split at hsame
    · exact absurd (congrArg isZero hsame) hx
    · exact hsame

/-- Numbers that are equal but for the sign of zero are written differently if they differ. -/
theorem Number.text_append_inj {m n : Number} (hsame : m.unsignedZero = n.unsignedZero)
    {rest rest' : List Char} (h : m.text.toList ++ rest = n.text.toList ++ rest') :
    m = n ∧ rest = rest' := by
  have heq : m = n := by
    cases m with
    | integer k =>
      cases n with
      | integer l => exact hsame
      | real y => cases hsame
    | real x =>
      cases n with
      | integer l => cases hsame
      | real y => exact congrArg real (Double.eq_of_text_append (real.inj hsame) h)
  subst heq
  exact ⟨rfl, List.append_cancel_left h⟩

namespace Value

/-! ## Distinct names -/

mutual

/-- No object in the value has two members of one name. -/
def namesDistinct : Value → Bool
  | .array items => namesDistinctItems items
  | .object members => decide (members.map Prod.fst).Nodup && namesDistinctMembers members
  | _ => true

/-- So in none of the items. -/
def namesDistinctItems : List Value → Bool
  | [] => true
  | item :: items => item.namesDistinct && namesDistinctItems items

/-- So in none of the members' values. -/
def namesDistinctMembers : List (String × Value) → Bool
  | [] => true
  | (_, value) :: members => value.namesDistinct && namesDistinctMembers members

end

/-- The normal form of an object gives the one of its first member and the one of its rest. -/
theorem normalMembers_cons_inj {name : String} {v w : Value}
    {members members' : List (String × Value)}
    (hnodup : (((name, v) :: members).map Prod.fst).Nodup)
    (hnodup' : (((name, w) :: members').map Prod.fst).Nodup)
    (h : normalMembers ((name, v) :: members) = normalMembers ((name, w) :: members')) :
    v.normal = w.normal ∧ normalMembers members = normalMembers members' := by
  have hfind : ∀ other, (List.lookup other ((name, v) :: members)).map normal
      = (List.lookup other ((name, w) :: members')).map normal := by
    intro other
    rw [← find_normalMembers hnodup, ← find_normalMembers hnodup', h]
  constructor
  · simpa [Dict.lookup_cons] using hfind name
  · obtain ⟨hnew, hrest⟩ := List.nodup_cons.mp hnodup
    obtain ⟨hnew', hrest'⟩ := List.nodup_cons.mp hnodup'
    refine (sortedByName_normalMembers members).eq_of_find_eq (sortedByName_normalMembers members')
      fun other => ?_
    rw [find_normalMembers hrest, find_normalMembers hrest']
    by_cases hother : name = other
    · subst hother
      rw [(Dict.lookup_eq_none_iff _ _).mpr hnew, (Dict.lookup_eq_none_iff _ _).mpr hnew']
    · simpa only [Dict.lookup_cons, if_neg hother] using hfind other

/-! ## Texts -/

mutual

/-- Texts that start with equal values and are equal start with the same value. -/
theorem chars_append_inj : ∀ {v w : Value}, v.namesDistinct = true → w.namesDistinct = true →
    v.normal = w.normal → ∀ {rest rest' : List Char},
    v.chars ++ rest = w.chars ++ rest' → v = w ∧ rest = rest'
  | .null, w, _, _, hsame, rest, rest', h => by
    cases w <;> cases hsame
    exact ⟨rfl, List.append_cancel_left h⟩
  | .bool b, w, _, _, hsame, rest, rest', h => by
    cases w <;> cases hsame
    exact ⟨rfl, List.append_cancel_left h⟩
  | .number m, w, _, _, hsame, rest, rest', h => by
    cases w with
    | number n =>
      obtain ⟨rfl, hrest⟩ := Number.text_append_inj (Value.number.inj hsame) h
      exact ⟨rfl, hrest⟩
    | _ => cases hsame
  | .string s, w, _, _, hsame, rest, rest', h => by
    cases w <;> cases hsame
    exact ⟨rfl, List.append_cancel_left h⟩
  | .array [], w, hv, hw, hsame, rest, rest', h => by
    cases w with
    | array items' =>
      cases items' with
      | nil => exact ⟨rfl, List.append_cancel_left h⟩
      | cons => cases hsame
    | _ => cases hsame
  | .array (item :: items), w, hv, hw, hsame, rest, rest', h => by
    cases w with
    | array items' =>
      cases items' with
      | nil => cases hsame
      | cons item' items' =>
        have hmore : moreItems (item :: items) ++ rest = moreItems (item' :: items') ++ rest' :=
          congrArg (List.cons ',') (List.cons.inj h).2
        obtain ⟨heq, hrest⟩ := moreItems_append_inj hv hw (Value.array.inj hsame) hmore
        exact ⟨congrArg array heq, hrest⟩
    | _ => cases hsame
  | .object [], w, hv, hw, hsame, rest, rest', h => by
    cases w with
    | object members' =>
      cases members' with
      | nil => exact ⟨rfl, List.append_cancel_left h⟩
      | cons member members' => simp [chars, stringText] at h
    | _ => cases hsame
  | .object (member :: members), w, hv, hw, hsame, rest, rest', h => by
    cases w with
    | object members' =>
      cases members' with
      | nil => simp [chars, stringText] at h
      | cons member' members' =>
        have hmore : moreMembers (member :: members) ++ rest
            = moreMembers (member' :: members') ++ rest' :=
          congrArg (List.cons ',') (List.cons.inj h).2
        obtain ⟨hnodup, hmembers⟩ := Bool.and_eq_true_iff.mp hv
        obtain ⟨hnodup', hmembers'⟩ := Bool.and_eq_true_iff.mp hw
        obtain ⟨heq, hrest⟩ := moreMembers_append_inj (of_decide_eq_true hnodup)
          (of_decide_eq_true hnodup') hmembers hmembers' (Value.object.inj hsame) hmore
        exact ⟨congrArg object heq, hrest⟩
    | _ => cases hsame

theorem moreItems_append_inj : ∀ {items items' : List Value}, namesDistinctItems items = true →
    namesDistinctItems items' = true → normalItems items = normalItems items' →
    ∀ {rest rest' : List Char},
    moreItems items ++ rest = moreItems items' ++ rest' → items = items' ∧ rest = rest'
  | [], items', hv, hw, hsame, rest, rest', h => by
    cases items' with
    | nil => exact ⟨rfl, List.append_cancel_left h⟩
    | cons => cases hsame
  | item :: items, items', hv, hw, hsame, rest, rest', h => by
    cases items' with
    | nil => cases hsame
    | cons item' items' =>
      obtain ⟨hitem, hitems⟩ := Bool.and_eq_true_iff.mp hv
      obtain ⟨hitem', hitems'⟩ := Bool.and_eq_true_iff.mp hw
      obtain ⟨hfirst, hmore⟩ := List.cons.inj hsame
      simp only [moreItems, List.cons_append, List.append_assoc, List.cons.injEq, true_and] at h
      obtain ⟨rfl, hafter⟩ := chars_append_inj hitem hitem' hfirst h
      obtain ⟨rfl, hrest⟩ := moreItems_append_inj hitems hitems' hmore hafter
      exact ⟨rfl, hrest⟩

theorem moreMembers_append_inj : ∀ {members members' : List (String × Value)},
    (members.map Prod.fst).Nodup → (members'.map Prod.fst).Nodup →
    namesDistinctMembers members = true → namesDistinctMembers members' = true →
    normalMembers members = normalMembers members' → ∀ {rest rest' : List Char},
    moreMembers members ++ rest = moreMembers members' ++ rest' →
    members = members' ∧ rest = rest'
  | [], members', _, _, _, _, _, rest, rest', h => by
    cases members' with
    | nil => exact ⟨rfl, List.append_cancel_left h⟩
    | cons member' members' => simp [moreMembers] at h
  | (name, value) :: members, members', hnodup, hnodup', hv, hw, hsame, rest, rest', h => by
    cases members' with
    | nil => simp [moreMembers] at h
    | cons member' members' =>
      obtain ⟨name', value'⟩ := member'
      obtain ⟨hvalue, hmembers⟩ := Bool.and_eq_true_iff.mp hv
      obtain ⟨hvalue', hmembers'⟩ := Bool.and_eq_true_iff.mp hw
      simp only [moreMembers, List.cons_append, List.append_assoc, List.cons.injEq, true_and] at h
      obtain ⟨rfl, hcolon⟩ := stringText_append_inj h
      obtain ⟨hfirst, hmore⟩ := normalMembers_cons_inj hnodup hnodup' hsame
      obtain ⟨rfl, hafter⟩ := chars_append_inj hvalue hvalue' hfirst (List.cons.inj hcolon).2
      obtain ⟨rfl, hrest⟩ := moreMembers_append_inj (List.nodup_cons.mp hnodup).2
        (List.nodup_cons.mp hnodup').2 hmembers hmembers' hmore hafter
      exact ⟨rfl, hrest⟩

end

/-- Equal values have one text only if they are written alike. -/
theorem Same.eq_of_text_eq {v w : Value} (h : Same v w) (hv : v.namesDistinct = true)
    (hw : w.namesDistinct = true) (htext : v.text = w.text) : v = w := by
  have hchars : v.chars ++ [] = w.chars ++ [] := congrArg (· ++ []) (String.ofList_injective htext)
  exact (chars_append_inj hv hw ((same_iff v w).mp h) hchars).1

end Value

/-! ## Values that are read -/

theorem Dict.mem_of_mem_foldl_set {α : Type} {entry : String × α} {pairs : List (String × α)}
    {d : Dict α} (h : entry ∈ (pairs.foldl (fun d pair => d.set pair.1 pair.2) d).entries) :
    entry ∈ pairs ∨ entry ∈ d.entries := by
  induction pairs generalizing d with
  | nil => exact .inr h
  | cons pair pairs ih =>
    obtain hpairs | hset := ih h
    · exact .inl (List.mem_cons_of_mem pair hpairs)
    · obtain ⟨name, value⟩ := entry
      have hvalue : (d.set pair.1 pair.2).get? name = some value := Dict.get?_of_mem _ hset
      rw [Dict.get?_set] at hvalue
      split at hvalue
      · next hname =>
        obtain rfl := Option.some.inj hvalue
        subst hname
        exact .inl List.mem_cons_self
      · exact .inr (Dict.mem_of_get? hvalue)

namespace Value

theorem namesDistinctMembers_iff {members : List (String × Value)} :
    namesDistinctMembers members = true ↔ ∀ member ∈ members, member.2.namesDistinct = true := by
  induction members with
  | nil => simp [namesDistinctMembers]
  | cons member members ih =>
    rw [namesDistinctMembers, Bool.and_eq_true, ih, List.forall_mem_cons]

/-- The object of some pairs has distinct names if their values have. -/
theorem namesDistinct_ofList {pairs : List (String × Value)}
    (h : namesDistinctMembers pairs = true) :
    (ofFields (Dict.ofList pairs)).namesDistinct = true := by
  refine Bool.and_eq_true_iff.mpr ⟨decide_eq_true (Dict.ofList pairs).nodup, ?_⟩
  rw [namesDistinctMembers_iff] at h ⊢
  intro member hmember
  obtain hpair | hempty := Dict.mem_of_mem_foldl_set hmember
  · exact h member hpair
  · cases hempty

end Value

namespace Json.Literal

variable {readHeld : String → Option Value}

mutual

/-- The value of a literal repeats no name if the values of the texts that it holds do not. -/
theorem namesDistinct_of_valueWithin?
    (hheld : ∀ {text v}, readHeld text = some v → v.namesDistinct = true) :
    ∀ {depth : Nat} {literal : Literal} {v : Value},
    valueWithin? readHeld depth literal = some v → v.namesDistinct = true
  | depth, .null, v, h => by
    cases h
    rfl
  | depth, .bool b, v, h => by
    cases h
    rfl
  | depth, .number n, v, h => by
    obtain ⟨m, -, rfl⟩ := Option.map_eq_some_iff.mp h
    rfl
  | depth, .string units, v, h => by
    obtain ⟨s, -, rfl⟩ := Option.map_eq_some_iff.mp h
    rfl
  | depth, .array items, v, h => by
    rw [valueWithin?] at h
    split at h
    · cases h
    · obtain ⟨values, hvalues, rfl⟩ := Option.map_eq_some_iff.mp h
      exact namesDistinct_of_itemsWithin? hheld hvalues
  | depth, .object members, v, h => by
    rw [valueWithin?] at h
    split at h
    · cases h
    · split at h
      · cases h
      · exact hheld h
      · obtain ⟨pairs, hpairs, rfl⟩ := Option.map_eq_some_iff.mp h
        exact Value.namesDistinct_ofList (namesDistinct_of_membersWithin? hheld hpairs)

theorem namesDistinct_of_itemsWithin?
    (hheld : ∀ {text v}, readHeld text = some v → v.namesDistinct = true) :
    ∀ {depth : Nat} {items : List Literal} {values : List Value},
    itemsWithin? readHeld depth items = some values → Value.namesDistinctItems values = true
  | depth, [], values, h => by
    cases h
    rfl
  | depth, item :: items, values, h => by
    rw [itemsWithin?] at h
    obtain ⟨value, hvalue, h⟩ := Option.bind_eq_some_iff.mp h
    obtain ⟨rest, hrest, h⟩ := Option.bind_eq_some_iff.mp h
    cases h
    exact Bool.and_eq_true_iff.mpr
      ⟨namesDistinct_of_valueWithin? hheld hvalue, namesDistinct_of_itemsWithin? hheld hrest⟩

theorem namesDistinct_of_membersWithin?
    (hheld : ∀ {text v}, readHeld text = some v → v.namesDistinct = true) :
    ∀ {depth : Nat} {members : List (List StringUnit × Literal)} {pairs : List (String × Value)},
    membersWithin? readHeld depth members = some pairs → Value.namesDistinctMembers pairs = true
  | depth, [], pairs, h => by
    cases h
    rfl
  | depth, (units, literal) :: members, pairs, h => by
    rw [membersWithin?] at h
    obtain ⟨name, -, h⟩ := Option.bind_eq_some_iff.mp h
    obtain ⟨value, hvalue, h⟩ := Option.bind_eq_some_iff.mp h
    obtain ⟨rest, hrest, h⟩ := Option.bind_eq_some_iff.mp h
    cases h
    exact Bool.and_eq_true_iff.mpr
      ⟨namesDistinct_of_valueWithin? hheld hvalue, namesDistinct_of_membersWithin? hheld hrest⟩

end

end Json.Literal

/-- A value that is read from a text repeats no name. -/
theorem Value.namesDistinct_of_ofText? {text : String} {v : Value} (h : ofText? text = some v) :
    v.namesDistinct = true := by
  rw [ofText?] at h
  obtain ⟨literal, -, hvalue⟩ := Option.bind_eq_some_iff.mp h
  refine Json.Literal.namesDistinct_of_valueWithin? (fun {held w} hw => ?_) hvalue
  split at hw
  · next hshorter => exact namesDistinct_of_ofText? hw
  · cases hw
termination_by text.length

end LinkedDocs
