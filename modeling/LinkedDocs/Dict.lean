/-!
# Insertion-ordered maps

A `Dict α` maps names to values and remembers the order in which the names came in. Documents are
such maps, and so is the store itself. Writing a name that is present keeps its place, writing a
new one appends it. There are two ways to take a name out: `erase` closes the gap and keeps the
order of the rest, `swapErase` moves the last entry into the hole.

The view of a map is its list of `entries`; no name occurs twice in it, and that is part of the
type. The lemmas below say what each operation does to `get?` and to the entries.
-/

namespace LinkedDocs

universe u

/-- A map from names to values that keeps the order of insertion. -/
structure Dict (α : Type u) where
  entries : List (String × α)
  nodup : (entries.map Prod.fst).Nodup

namespace Dict

variable {α : Type u}

/-! ## Entries: plain lists of pairs -/

/-- The value under a name among pairs, such as the members of an object. -/
abbrev find (name : String) (entries : List (String × α)) : Option α := entries.lookup name

/-- Writes a value: in place if the name is there, at the end if it is not. -/
def put (name : String) (value : α) : List (String × α) → List (String × α)
  | [] => [(name, value)]
  | (key, old) :: rest =>
    if key = name then (name, value) :: rest else (key, old) :: put name value rest

/-- Takes a pair out and moves the last pair into its place. -/
def swapOut (name : String) : List (String × α) → List (String × α)
  | [] => []
  | (key, old) :: rest =>
    if key = name then
      match rest.getLast? with
      | none => []
      | some last => last :: rest.dropLast
    else (key, old) :: swapOut name rest

theorem lookup_cons (name key : String) (value : α) (rest : List (String × α)) :
    List.lookup name ((key, value) :: rest)
      = if key = name then some value else rest.lookup name := by
  rw [List.lookup_cons]
  by_cases h : key = name
  · simp [h]
  · simp [h, beq_false_of_ne (Ne.symm h)]

theorem lookup_eq_none_iff (name : String) (entries : List (String × α)) :
    entries.lookup name = none ↔ name ∉ entries.map Prod.fst := by
  rw [List.lookup_eq_none_iff]
  simp only [bne_iff_ne, List.mem_map, not_exists, not_and]
  exact forall₂_congr fun _ _ => ne_comm

theorem mem_of_lookup {name : String} {value : α} {entries : List (String × α)}
    (h : entries.lookup name = some value) : (name, value) ∈ entries := by
  obtain ⟨front, back, rfl, -⟩ := List.lookup_eq_some_iff.mp h
  exact List.mem_append_right front (List.mem_cons_self ..)

/-- Where the names are distinct, a pair is found under its name. -/
theorem lookup_of_mem {name : String} {value : α} {entries : List (String × α)}
    (h : (entries.map Prod.fst).Nodup) (hmem : (name, value) ∈ entries) :
    entries.lookup name = some value := by
  obtain ⟨front, back, rfl⟩ := List.append_of_mem hmem
  refine List.lookup_eq_some_iff.mpr ⟨front, back, rfl, fun pair hpair => ?_⟩
  rw [List.map_append, List.nodup_append] at h
  have hne := h.2.2 pair.1 (List.mem_map_of_mem hpair) name (List.mem_cons_self ..)
  exact bne_iff_ne.mpr hne.symm

theorem keys_put (name : String) (value : α) (entries : List (String × α)) :
    (put name value entries).map Prod.fst
      = if name ∈ entries.map Prod.fst then entries.map Prod.fst
        else entries.map Prod.fst ++ [name] := by
  induction entries with
  | nil => simp [put]
  | cons pair rest ih =>
    obtain ⟨key, old⟩ := pair
    by_cases h : key = name
    · simp [put, h]
    · by_cases hm : name ∈ rest.map Prod.fst
      · rw [if_pos hm] at ih
        have hm' : name ∈ ((key, old) :: rest).map Prod.fst := List.mem_cons_of_mem _ hm
        rw [if_pos hm', put, if_neg h, List.map_cons, ih, List.map_cons]
      · rw [if_neg hm] at ih
        have hm' : name ∉ ((key, old) :: rest).map Prod.fst := by
          rw [List.map_cons, List.mem_cons]
          rintro (he | he)
          · exact h he.symm
          · exact hm he
        rw [if_neg hm', put, if_neg h, List.map_cons, ih, List.map_cons, List.cons_append]

theorem nodup_put (name : String) (value : α) {entries : List (String × α)}
    (h : (entries.map Prod.fst).Nodup) : ((put name value entries).map Prod.fst).Nodup := by
  rw [keys_put]
  split
  · exact h
  · next hm =>
    rw [List.nodup_append]
    refine ⟨h, by simp, ?_⟩
    intro a ha b hb
    rw [List.mem_singleton] at hb
    rintro rfl
    exact hm (hb ▸ ha)

theorem lookup_put (name other : String) (value : α) (entries : List (String × α)) :
    List.lookup other (put name value entries)
      = if other = name then some value else entries.lookup other := by
  induction entries with
  | nil =>
    by_cases h : other = name
    · simp [put, h]
    · simp [put, lookup_cons, h, Ne.symm h]
  | cons pair rest ih =>
    obtain ⟨key, old⟩ := pair
    by_cases hk : key = name
    · subst hk
      by_cases h : other = key
      · simp [put, h]
      · simp [put, lookup_cons, h, Ne.symm h]
    · by_cases h : other = name
      · subst h
        simp [put, lookup_cons, hk, ih]
      · simp [put, lookup_cons, hk, ih, h]

/-- Writing the value that is there changes nothing. -/
theorem put_of_lookup {name : String} {value : α} {entries : List (String × α)}
    (h : entries.lookup name = some value) : put name value entries = entries := by
  induction entries with
  | nil => simp at h
  | cons pair rest ih =>
    obtain ⟨key, old⟩ := pair
    by_cases hk : key = name
    · subst hk
      have : old = value := by simpa [lookup_cons] using h
      simp [put, this]
    · rw [lookup_cons, if_neg hk] at h
      rw [put, if_neg hk, ih h]

theorem lookup_filter {name : String} (keep : String → α → Bool) {entries : List (String × α)}
    (h : (entries.map Prod.fst).Nodup) :
    List.lookup name (entries.filter fun pair => keep pair.1 pair.2)
      = (entries.lookup name).filter (keep name) := by
  induction entries with
  | nil => rfl
  | cons pair rest ih =>
    obtain ⟨key, value⟩ := pair
    have hnd : key ∉ rest.map Prod.fst ∧ (rest.map Prod.fst).Nodup := by simpa using h
    by_cases hk : key = name
    · subst hk
      have hrest : rest.lookup key = none := (lookup_eq_none_iff key rest).mpr hnd.1
      cases hv : keep key value with
      | true => simp [hv, Option.filter]
      | false => simp [hv, ih hnd.2, hrest, Option.filter]
    · cases hv : keep key value with
      | true => simp [lookup_cons, hv, hk, ih hnd.2]
      | false => simp [lookup_cons, hv, hk, ih hnd.2]

/-- Swapping out keeps the other pairs, each once. -/
theorem swapOut_perm (name : String) (entries : List (String × α))
    (h : (entries.map Prod.fst).Nodup) :
    (swapOut name entries).Perm (entries.filter (fun pair => decide (pair.1 ≠ name))) := by
  induction entries with
  | nil => exact List.Perm.refl _
  | cons pair rest ih =>
    obtain ⟨key, old⟩ := pair
    have hnd : key ∉ rest.map Prod.fst ∧ (rest.map Prod.fst).Nodup := by
      simpa using h
    by_cases hk : key = name
    · subst hk
      have hkeep : rest.filter (fun pair => decide (pair.1 ≠ key)) = rest := by
        rw [List.filter_eq_self]
        intro pair hp
        have : pair.1 ∈ rest.map Prod.fst := List.mem_map_of_mem hp
        have hne : pair.1 ≠ key := by
          rintro he
          exact hnd.1 (he ▸ this)
        simp [hne]
      rw [List.filter_cons_of_neg (by simp), hkeep]
      simp only [swapOut, if_true]
      cases hl : rest.getLast? with
      | none => rw [List.getLast?_eq_none_iff] at hl; simp [hl]
      | some last =>
        have happ : rest.dropLast ++ [last] = rest := by
          have hne : rest ≠ [] := by rintro rfl; simp at hl
          rw [List.getLast?_eq_some_getLast hne] at hl
          have := List.dropLast_concat_getLast hne
          simp only [Option.some.injEq] at hl
          rw [hl] at this
          simpa using this
        calc (last :: rest.dropLast).Perm (rest.dropLast ++ [last]) :=
              (List.perm_append_singleton last rest.dropLast).symm
          _ = rest := happ
    · rw [List.filter_cons_of_pos (by simp [hk])]
      simp only [swapOut, if_neg hk]
      exact (ih hnd.2).cons _

theorem nodup_swapOut (name : String) {entries : List (String × α)}
    (h : (entries.map Prod.fst).Nodup) : ((swapOut name entries).map Prod.fst).Nodup := by
  have hp := (swapOut_perm name entries h).map Prod.fst
  rw [hp.nodup_iff]
  exact h.sublist (List.Sublist.map _ List.filter_sublist)

/-- Where a name is looked for in pairs with distinct names, their order does not matter. -/
theorem lookup_of_perm {name : String} {entries entries' : List (String × α)}
    (hp : entries.Perm entries') (h : (entries'.map Prod.fst).Nodup) :
    entries.lookup name = entries'.lookup name := by
  cases hfound : entries.lookup name with
  | none =>
    have hname : name ∉ entries.map Prod.fst := (lookup_eq_none_iff name entries).mp hfound
    rw [(hp.map Prod.fst).mem_iff] at hname
    exact ((lookup_eq_none_iff name entries').mpr hname).symm
  | some value => exact (lookup_of_mem h (hp.mem_iff.mp (mem_of_lookup hfound))).symm

/-! ## Maps -/

@[ext] theorem ext {a b : Dict α} (h : a.entries = b.entries) : a = b := by
  cases a; cases b; cases h; rfl

instance [DecidableEq α] : DecidableEq (Dict α) := fun a b =>
  if h : a.entries = b.entries then .isTrue (ext h) else .isFalse fun e => h (e ▸ rfl)

/-- The map without entries. -/
def empty : Dict α := ⟨[], by simp⟩

instance : Inhabited (Dict α) := ⟨empty⟩

/-- The names, in order. -/
def keys (d : Dict α) : List String := d.entries.map Prod.fst

/-- The value under a name. -/
def get? (d : Dict α) (name : String) : Option α := d.entries.lookup name

/-- Whether the name is present. -/
def contains (d : Dict α) (name : String) : Bool := (d.get? name).isSome

/-- Number of entries. -/
def size (d : Dict α) : Nat := d.entries.length

/-- Whether there are no entries. -/
def isEmpty (d : Dict α) : Bool := d.entries.isEmpty

/-- Writes a value: a present name keeps its place, a new one goes to the end. -/
def set (d : Dict α) (name : String) (value : α) : Dict α :=
  ⟨put name value d.entries, nodup_put name value d.nodup⟩

/-- Keeps the entries that pass a test, in order. -/
def filter (d : Dict α) (keep : String → α → Bool) : Dict α :=
  ⟨d.entries.filter fun pair => keep pair.1 pair.2,
    d.nodup.sublist (List.Sublist.map _ List.filter_sublist)⟩

/-- Takes a name out; the rest keeps its order. -/
def erase (d : Dict α) (name : String) : Dict α := d.filter fun key _ => decide (key ≠ name)

/-- Takes a name out; the last entry moves into its place. -/
def swapErase (d : Dict α) (name : String) : Dict α :=
  ⟨swapOut name d.entries, nodup_swapOut name d.nodup⟩

/-- Writes the pairs one after another: of a repeated name the last value wins, at the first place.
-/
def ofList (pairs : List (String × α)) : Dict α :=
  pairs.foldl (fun d pair => d.set pair.1 pair.2) empty

/-- Changes every value, keeping names and order. -/
def map {β : Type u} (d : Dict α) (f : α → β) : Dict β :=
  ⟨d.entries.map fun pair => (pair.1, f pair.2), by
    have h : (d.entries.map fun pair => (pair.1, f pair.2)).map Prod.fst
        = d.entries.map Prod.fst := by
      rw [List.map_map]; rfl
    rw [h]; exact d.nodup⟩

theorem get?_of_mem (d : Dict α) {name : String} {value : α} (h : (name, value) ∈ d.entries) :
    d.get? name = some value := lookup_of_mem d.nodup h

theorem mem_of_get? {d : Dict α} {name : String} {value : α} (h : d.get? name = some value) :
    (name, value) ∈ d.entries := mem_of_lookup h

theorem get?_eq_none_iff (d : Dict α) (name : String) : d.get? name = none ↔ name ∉ d.keys :=
  lookup_eq_none_iff name d.entries

@[simp] theorem get?_empty (name : String) : (empty : Dict α).get? name = none := rfl

theorem get?_set (d : Dict α) (name other : String) (value : α) :
    (d.set name value).get? other = if other = name then some value else d.get? other :=
  lookup_put name other value d.entries

@[simp] theorem get?_set_self (d : Dict α) (name : String) (value : α) :
    (d.set name value).get? name = some value := by
  rw [get?_set, if_pos rfl]

theorem get?_set_of_ne (d : Dict α) {name other : String} (value : α) (h : other ≠ name) :
    (d.set name value).get? other = d.get? other := by
  rw [get?_set, if_neg h]

/-- Writing the value that is there changes nothing. -/
theorem set_of_get? {d : Dict α} {name : String} {value : α} (h : d.get? name = some value) :
    d.set name value = d := ext (put_of_lookup h)

theorem get?_filter (d : Dict α) (keep : String → α → Bool) (name : String) :
    (d.filter keep).get? name = (d.get? name).filter (keep name) := lookup_filter keep d.nodup

theorem get?_erase (d : Dict α) (name other : String) :
    (d.erase name).get? other = if other = name then none else d.get? other := by
  rw [erase, get?_filter]
  by_cases h : other = name
  · cases d.get? other <;> simp [h]
  · cases d.get? other <;> simp [h]

/-- Swapping a name out takes it out and leaves the other values. -/
theorem get?_swapErase (d : Dict α) (name other : String) :
    (d.swapErase name).get? other = if other = name then none else d.get? other := by
  rw [← get?_erase]
  exact lookup_of_perm (swapOut_perm name d.entries d.nodup) (d.erase name).nodup

/-- What is there after swapping a name out was there before. -/
theorem get?_of_get?_swapErase {d : Dict α} {name other : String} {value : α}
    (h : (d.swapErase name).get? other = some value) : d.get? other = some value := by
  have hmem := (swapOut_perm name d.entries d.nodup).mem_iff.mp (mem_of_get? h)
  exact d.get?_of_mem (List.mem_filter.mp hmem).1

/-- Two filters one after the other, in either order. -/
theorem filter_comm (d : Dict α) (keep keep' : String → α → Bool) :
    (d.filter keep).filter keep' = (d.filter keep').filter keep :=
  ext (by simp [filter, Bool.and_comm])

@[simp] theorem entries_filter (d : Dict α) (keep : String → α → Bool) :
    (d.filter keep).entries = d.entries.filter fun pair => keep pair.1 pair.2 := rfl

@[simp] theorem entries_erase (d : Dict α) (name : String) :
    (d.erase name).entries = d.entries.filter fun pair => decide (pair.1 ≠ name) := rfl

end Dict

end LinkedDocs
