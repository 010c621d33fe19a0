import LinkedDocs.Dict
import LinkedDocs.Sorted

/-!
# Sorted lists of named values

A list of pairs that is sorted by name (`SortedByName`) stays so when a pair is put at its place.
What is found in it afterwards depends on whether the name was there.
-/

namespace LinkedDocs

variable {α : Type}

/-- The names of the entries are strictly increasing. -/
def SortedByName (entries : List (String × α)) : Prop :=
  (entries.map Prod.fst).Pairwise (· < ·)

theorem keys_putSorted (name : String) (value : α) (entries : List (String × α)) :
    (putSorted name value entries).map Prod.fst = insertName name (entries.map Prod.fst) := by
  induction entries with
  | nil => rfl
  | cons pair rest ih =>
    obtain ⟨key, old⟩ := pair
    rw [putSorted, List.map_cons, insertName]
    split
    · rfl
    · split
      · rw [List.map_cons, ih]
      · next hlt hgt =>
        rw [List.map_cons, Std.le_antisymm (Std.not_lt.mp hgt) (Std.not_lt.mp hlt)]

theorem SortedByName.putSorted {entries : List (String × α)}
    (h : SortedByName entries) (name : String) (value : α) :
    SortedByName (putSorted name value entries) := by
  rw [SortedByName, keys_putSorted]
  exact pairwise_insertName name h

/-- A new name comes in between. -/
theorem putSorted_of_lookup_none {name : String} {entries : List (String × α)}
    (h : entries.lookup name = none) (value : α) :
    ∃ before after, entries = before ++ after ∧
      putSorted name value entries = before ++ (name, value) :: after := by
  induction entries with
  | nil => exact ⟨[], [], rfl, rfl⟩
  | cons pair rest ih =>
    obtain ⟨key, old⟩ := pair
    have hne : key ≠ name := by
      rintro rfl
      simp at h
    rw [Dict.lookup_cons, if_neg hne] at h
    rw [putSorted]
    split
    · exact ⟨[], (key, old) :: rest, rfl, rfl⟩
    · split
      · obtain ⟨before, after, hrest, hput⟩ := ih h
        exact ⟨(key, old) :: before, after, by rw [hrest]; rfl, by rw [hput]; rfl⟩
      · next hlt hgt =>
        exact absurd (Std.le_antisymm (Std.not_lt.mp hlt) (Std.not_lt.mp hgt)) hne

/-- A name that is there keeps its place. -/
theorem putSorted_of_lookup {name : String} {old : α} {entries : List (String × α)}
    (hsorted : SortedByName entries) (h : entries.lookup name = some old) (value : α) :
    ∃ before after, entries = before ++ (name, old) :: after ∧
      putSorted name value entries = before ++ (name, value) :: after := by
  induction entries with
  | nil => simp at h
  | cons pair rest ih =>
    obtain ⟨key, first⟩ := pair
    obtain ⟨hall, hrest⟩ := List.pairwise_cons.mp hsorted
    rw [putSorted]
    by_cases heq : key = name
    · subst heq
      obtain rfl : first = old := by simpa using h
      rw [if_neg (Std.lt_irrefl), if_neg (Std.lt_irrefl)]
      exact ⟨[], rest, rfl, rfl⟩
    · rw [Dict.lookup_cons, if_neg heq] at h
      have hlt : key < name :=
        hall name (List.mem_map_of_mem (f := Prod.fst) (Dict.mem_of_lookup h))
      rw [if_neg (Std.not_lt.mpr (Std.le_of_lt hlt)), if_pos hlt]
      obtain ⟨before, after, hsplit, hput⟩ := ih hrest h
      exact ⟨(key, first) :: before, after, by rw [hsplit]; rfl, by rw [hput]; rfl⟩

/-! ## Putting in what is missing -/

theorem keys_insertMissing (name : String) (value : α) (entries : List (String × α)) :
    (insertMissing name value entries).map Prod.fst = insertName name (entries.map Prod.fst) := by
  induction entries with
  | nil => rfl
  | cons pair rest ih =>
    obtain ⟨key, old⟩ := pair
    rw [insertMissing, List.map_cons, insertName]
    split
    · rfl
    · split
      · rw [List.map_cons, ih]
      · rfl

theorem lookup_insertMissing_of_ne {name other : String} (h : other ≠ name) (value : α)
    (entries : List (String × α)) :
    List.lookup other (insertMissing name value entries) = entries.lookup other := by
  have hfirst : ∀ rest, List.lookup other ((name, value) :: rest) = rest.lookup other := by
    intro rest
    rw [Dict.lookup_cons, if_neg h.symm]
  induction entries with
  | nil => exact hfirst []
  | cons pair rest ih =>
    obtain ⟨key, old⟩ := pair
    rw [insertMissing]
    split
    · exact hfirst _
    · split
      · rw [Dict.lookup_cons, Dict.lookup_cons, ih]
      · rfl

theorem lookup_insertMissing_of_none {name : String} {entries : List (String × α)}
    (h : entries.lookup name = none) (value : α) :
    List.lookup name (insertMissing name value entries) = some value := by
  induction entries with
  | nil => rw [insertMissing, List.lookup_cons_self]
  | cons pair rest ih =>
    obtain ⟨key, old⟩ := pair
    have hne : key ≠ name := by
      rintro rfl
      rw [List.lookup_cons_self] at h
      cases h
    rw [Dict.lookup_cons, if_neg hne] at h
    rw [insertMissing]
    split
    · rw [List.lookup_cons_self]
    · split
      · rw [Dict.lookup_cons, if_neg hne, ih h]
      · next hlt hgt => exact absurd (Std.le_antisymm (Std.not_lt.mp hlt) (Std.not_lt.mp hgt)) hne

end LinkedDocs
