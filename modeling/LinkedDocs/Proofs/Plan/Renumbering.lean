import LinkedDocs.Plan

/-!
# Plans under other numbers

The numbers of the nodes are made up while a plan is loaded; they only tell the nodes apart. A plan
that is loaded below a reference gets the numbers that are next, one that is loaded for itself
starts over, and apart from that the two are the same:

> `loadSub_renumber`: where counting goes on, loading from other numbers gives the same plan under
> other numbers, or the same error.
-/

namespace LinkedDocs

namespace Plan

mutual

/-- The plan with other numbers for its nodes. -/
def renumber (number : Nat → Nat) : Plan → Plan
  | .node info ones manys =>
    .node { info with id := number info.id } (renumberAll number ones) (renumberAll number manys)

/-- Children with other numbers for their nodes. -/
def renumberAll (number : Nat → Nat) : List (String × Plan) → List (String × Plan)
  | [] => []
  | (target, child) :: rest => (target, renumber number child) :: renumberAll number rest

end

variable (number : Nat → Nat)

@[simp] theorem info_renumber (p : Plan) :
    (p.renumber number).info = { p.info with id := number p.info.id } := by
  cases p
  rfl

@[simp] theorem ones_renumber (p : Plan) :
    (p.renumber number).ones = renumberAll number p.ones := by
  cases p
  rfl

@[simp] theorem manys_renumber (p : Plan) :
    (p.renumber number).manys = renumberAll number p.manys := by
  cases p
  rfl

theorem map_fst_renumberAll (entries : List (String × Plan)) :
    (renumberAll number entries).map Prod.fst = entries.map Prod.fst := by
  induction entries with
  | nil => rfl
  | cons entry rest ih =>
    rw [renumberAll, List.map_cons, List.map_cons, ih]

theorem isEmpty_renumberAll (entries : List (String × Plan)) :
    (renumberAll number entries).isEmpty = entries.isEmpty := by
  cases entries <;> rfl

theorem find_renumberAll (target : String) (entries : List (String × Plan)) :
    List.lookup target (renumberAll number entries)
      = (entries.lookup target).map (renumber number) := by
  induction entries with
  | nil => rfl
  | cons entry rest ih =>
    obtain ⟨other, child⟩ := entry
    rw [renumberAll, Dict.lookup_cons, Dict.lookup_cons]
    by_cases h : other = target
    · rw [if_pos h, if_pos h]
      rfl
    · rw [if_neg h, if_neg h]
      exact ih

/-- What is fetched has nothing to do with the numbers. -/
@[simp] theorem projection_renumber (p : Plan) :
    (p.renumber number).projection = p.projection := by
  simp only [projection, info_renumber, ones_renumber, manys_renumber, map_fst_renumberAll]

mutual

theorem renumber_id : ∀ p : Plan, p.renumber id = p
  | .node info ones manys => by
    rw [renumber, renumberAll_id ones, renumberAll_id manys]
    rfl

theorem renumberAll_id : ∀ entries : List (String × Plan), renumberAll id entries = entries
  | [] => rfl
  | (target, child) :: rest => by
    rw [renumberAll, renumber_id child, renumberAll_id rest]

end

/-! ## Loading -/

theorem renumber_leaf (n : Nat) (collection : String) (scope : Scope) :
    (leaf n collection scope).renumber number = leaf (number n) collection scope := rfl

theorem renumber_readAll (p : Plan) : p.readAll.renumber number = (p.renumber number).readAll := by
  cases p
  rfl

theorem renumber_readField (name : String) (p : Plan) :
    (p.readField name).renumber number = (p.renumber number).readField name := by
  cases p
  rfl

theorem renumberAll_putSorted (target : String) (child : Plan) (entries : List (String × Plan)) :
    renumberAll number (putSorted target child entries)
      = putSorted target (child.renumber number) (renumberAll number entries) := by
  induction entries with
  | nil => rfl
  | cons entry rest ih =>
    obtain ⟨other, old⟩ := entry
    rw [putSorted, renumberAll, putSorted]
    by_cases hbefore : target < other
    · rw [if_pos hbefore, if_pos hbefore, renumberAll, renumberAll]
    · by_cases hafter : other < target
      · rw [if_neg hbefore, if_neg hbefore, if_pos hafter, if_pos hafter, renumberAll, ih]
      · rw [if_neg hbefore, if_neg hbefore, if_neg hafter, if_neg hafter, renumberAll]

theorem renumber_withOne (p : Plan) (target : String) (child : Plan) :
    (p.withOne target child).renumber number
      = (p.renumber number).withOne target (child.renumber number) := by
  cases p
  rw [withOne, renumber, withOne, Plan.ones, renumberAll_putSorted]
  rfl

theorem renumber_withMany (p : Plan) (target : String) (child : Plan) :
    (p.withMany target child).renumber number
      = (p.renumber number).withMany target (child.renumber number) := by
  cases p
  rw [withMany, renumber, withMany, Plan.manys, renumberAll_putSorted]
  rfl

variable {number}

/-- What loading gives, under other numbers. -/
def Loaded (number : Nat → Nat) (loaded : Plan × Nat) : Plan × Nat :=
  (loaded.1.renumber number, number loaded.2)

/-- Putting a child in that has been loaded. -/
theorem map_loaded {put : Plan → Plan} {put' : Plan → Plan}
    (hput : ∀ child, (put child).renumber number = put' (child.renumber number))
    (below : Except QueryError (Plan × Nat)) :
    (below.map (Loaded number)).map (fun (child, next) => (put' child, next))
      = (below.map fun (child, next) => (put child, next)).map (Loaded number) := by
  cases below with
  | error error => rfl
  | ok loaded => exact congrArg (fun p => Except.ok (p, _)) (hput loaded.1).symm

mutual

/-- Loading takes the numbers as they come. -/
theorem load_renumber (counts : ∀ n, number (n + 1) = number n + 1) :
    ∀ (selector : Selector) (p : Plan) (n : Nat),
    load selector (p.renumber number) (number n) = (load selector p n).map (Loaded number)
  | .wildcard, p, n => by
    rw [load, load, ← renumber_readAll]
    rfl
  | .field name, p, n => by
    rw [load, load, ← renumber_readField]
    rfl
  | .list items, p, n => by
    rw [load, load]
    exact loadItems_renumber counts items p n
  | .one target sub, p, n => by
    rw [load, load, ones_renumber, find_renumberAll]
    cases p.ones.lookup target with
    | some child =>
      rw [Option.map_some]
      dsimp only
      rw [loadSub_renumber counts sub child n]
      exact map_loaded (renumber_withOne number p target) _
    | none =>
      rw [Option.map_none]
      dsimp only
      rw [← renumber_leaf, ← counts, loadSub_renumber counts sub _ (n + 1)]
      exact map_loaded (renumber_withOne number p target) _
  | .many target sub scope, p, n => by
    rw [load, load, manys_renumber, find_renumberAll]
    cases p.manys.lookup target with
    | some child =>
      rw [Option.map_some]
      dsimp only
      rw [info_renumber]
      dsimp only
      by_cases hsame : child.info.scope.same scope = true
      · rw [if_pos hsame, if_pos hsame, loadSub_renumber counts sub child n]
        exact map_loaded (renumber_withMany number p target) _
      · rw [if_neg hsame, if_neg hsame]
        rfl
    | none =>
      rw [Option.map_none]
      dsimp only
      rw [← renumber_leaf, ← counts, loadSub_renumber counts sub _ (n + 1)]
      exact map_loaded (renumber_withMany number p target) _

theorem loadSub_renumber (counts : ∀ n, number (n + 1) = number n + 1) :
    ∀ (sub : Option Selector) (p : Plan) (n : Nat),
    loadSub sub (p.renumber number) (number n) = (loadSub sub p n).map (Loaded number)
  | none, p, n => by
    rw [loadSub, loadSub, ← renumber_readAll]
    rfl
  | some selector, p, n => by
    rw [loadSub, loadSub]
    exact load_renumber counts selector p n

theorem loadItems_renumber (counts : ∀ n, number (n + 1) = number n + 1) :
    ∀ (items : List Selector) (p : Plan) (n : Nat),
    loadItems items (p.renumber number) (number n) = (loadItems items p n).map (Loaded number)
  | [], p, n => by
    rw [loadItems, loadItems]
    rfl
  | item :: items, p, n => by
    rw [loadItems, loadItems, load_renumber counts item p n]
    cases load item p n with
    | error error => rfl
    | ok loaded => exact loadItems_renumber counts items loaded.1 loaded.2

end

end Plan

end LinkedDocs
