/-!
# Sorted lists of names

Sets of names and maps keyed by names whose order shows in answers are kept as strictly increasing
lists, ordered by code point. `insertName`, `insertMissing` and `putSorted` put a name at its place.

`sortedNames` is the set of some names: the same members (`mem_sortedNames`), strictly increasing
(`pairwise_sortedNames`).
-/

namespace LinkedDocs

universe u

/-- Adds a name to a sorted list of names; a name that is there stays there once. -/
def insertName (name : String) : List String → List String
  | [] => [name]
  | other :: rest =>
    if name < other then name :: other :: rest
    else if other < name then other :: insertName name rest
    else other :: rest

/-- The sorted set of some names. -/
def sortedNames (names : List String) : List String :=
  names.foldl (fun sorted name => insertName name sorted) []

/-- Puts a value at its place in a sorted list of pairs, unless the name is there. -/
def insertMissing {α : Type u} (name : String) (value : α) :
    List (String × α) → List (String × α)
  | [] => [(name, value)]
  | (other, kept) :: rest =>
    if name < other then (name, value) :: (other, kept) :: rest
    else if other < name then (other, kept) :: insertMissing name value rest
    else (other, kept) :: rest

/-- Puts a value at its place in a sorted list of pairs, over one that is there. -/
def putSorted {α : Type u} (name : String) (value : α) : List (String × α) → List (String × α)
  | [] => [(name, value)]
  | (other, old) :: rest =>
    if name < other then (name, value) :: (other, old) :: rest
    else if other < name then (other, old) :: putSorted name value rest
    else (name, value) :: rest

@[simp] theorem mem_insertName {a name : String} {sorted : List String} :
    a ∈ insertName name sorted ↔ a = name ∨ a ∈ sorted := by
  induction sorted with
  | nil => simp [insertName]
  | cons other rest ih =>
    rw [insertName]
    by_cases h₁ : name < other
    · simp [h₁]
    · by_cases h₂ : other < name
      · simp only [h₁, h₂, if_true, if_false, List.mem_cons, ih]
        exact or_left_comm
      · have he : name = other :=
          Std.le_antisymm (Std.not_lt.mp h₂) (Std.not_lt.mp h₁)
        subst he
        simp

@[simp] theorem mem_sortedNames {a : String} {names : List String} :
    a ∈ sortedNames names ↔ a ∈ names := by
  have key : ∀ (names sorted : List String),
      a ∈ names.foldl (fun s n => insertName n s) sorted ↔ a ∈ names ∨ a ∈ sorted := by
    intro names
    induction names with
    | nil => simp
    | cons name rest ih =>
      intro sorted
      rw [List.foldl_cons, ih, mem_insertName, List.mem_cons]
      constructor
      · rintro (h | h | h)
        · exact .inl (.inr h)
        · exact .inl (.inl h)
        · exact .inr h
      · rintro ((h | h) | h)
        · exact .inr (.inl h)
        · exact .inl h
        · exact .inr (.inr h)
  simpa [sortedNames] using key names []

theorem pairwise_insertName (name : String) {sorted : List String}
    (h : sorted.Pairwise (· < ·)) : (insertName name sorted).Pairwise (· < ·) := by
  induction sorted with
  | nil => simp [insertName]
  | cons other rest ih =>
    obtain ⟨hall, hrest⟩ := List.pairwise_cons.mp h
    rw [insertName]
    split
    · next hlt =>
      refine List.pairwise_cons.mpr ⟨?_, h⟩
      intro a ha
      obtain rfl | ha := List.mem_cons.mp ha
      · exact hlt
      · exact Std.lt_trans hlt (hall a ha)
    · split
      · next hgt =>
        refine List.pairwise_cons.mpr ⟨?_, ih hrest⟩
        intro a ha
        obtain rfl | ha := mem_insertName.mp ha
        · exact hgt
        · exact hall a ha
      · exact h

theorem pairwise_sortedNames (names : List String) : (sortedNames names).Pairwise (· < ·) := by
  have key : ∀ (names sorted : List String), sorted.Pairwise (· < ·) →
      (names.foldl (fun s n => insertName n s) sorted).Pairwise (· < ·) := by
    intro names
    induction names with
    | nil => exact fun _ h => h
    | cons name rest ih => exact fun sorted h => ih _ (pairwise_insertName name h)
  exact key names [] List.Pairwise.nil

end LinkedDocs
