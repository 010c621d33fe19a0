import LinkedDocs.Proofs.Plan.Scopes
import Mathlib.Data.List.Basic

/-!
# The parts of a selector

Every part of a selector stands at a path: the references that lead to it, lists left out
(`Selector.Occurs`). What stands below a reference may be absent, and so may the selector as a
whole. A reference itself has the path that its own edge ends, and a scope (`Selector.Refers`).

What stands where goes with the structure of the selector: in a list stands what stands in the items
(`occurs_list`, `refers_list`), and along a reference what stands at its end
(`occurs_reference_cons`, `refers_reference`).
-/

namespace LinkedDocs

namespace Selector

/-- A reference: the edge it follows, what is read at its end, and which documents. -/
structure Reference where
  edge : Edge
  sub : Option Selector
  scope : Scope

/-- A selector as a reference. A single reference has no scope of its own. -/
def reference? : Selector → Option Reference
  | .one target sub => some ⟨.one target, sub, .unrestricted⟩
  | .many target sub scope => some ⟨.many target, sub, scope⟩
  | _ => none

/-- An absent selector, a wildcard or a field: neither a list nor a reference. -/
def IsLeaf : Option Selector → Prop
  | none | some .wildcard | some (.field _) => True
  | some (.list _) | some (.one ..) | some (.many ..) => False

/-- A part stands in a selector at a path. Items stand where their list does. -/
inductive Occurs : Option Selector → List Edge → Option Selector → Prop where
  | here (part : Option Selector) : Occurs part [] part
  | item {items : List Selector} {item : Selector} {path : List Edge} {part : Option Selector} :
      item ∈ items → Occurs (some item) path part → Occurs (some (.list items)) path part
  | beyond {selector : Selector} {reference : Reference} {path : List Edge}
      {part : Option Selector} :
      selector.reference? = some reference → Occurs reference.sub path part →
        Occurs (some selector) (reference.edge :: path) part

/-- A reference in the selector has the path, its own edge included, and the scope. -/
def Refers (select : Option Selector) (path : List Edge) (scope : Scope) : Prop :=
  ∃ before selector reference, Occurs select before (some selector) ∧
    selector.reference? = some reference ∧ path = before ++ [reference.edge] ∧
    scope = reference.scope

/-- Two many references in the selector are on one path but have different scopes. -/
def Conflicting (select : Option Selector) : Prop :=
  ∃ path a b, Plan.EndsInMany path ∧ Refers select path a ∧ Refers select path b ∧ a.same b = false

/-! ## Where parts stand -/

variable {selector : Selector} {reference : Reference}

theorem not_isLeaf_of_reference? (href : selector.reference? = some reference) :
    ¬ IsLeaf (some selector) := by
  cases selector with
  | wildcard | field | list => cases href
  | one | many => exact id

/-- Only itself stands in what is neither a list nor a reference. -/
theorem occurs_leaf {select : Option Selector} (hleaf : IsLeaf select) {path : List Edge}
    {part : Option Selector} : Occurs select path part ↔ path = [] ∧ part = select := by
  constructor
  · intro h
    cases h with
    | here => exact ⟨rfl, rfl⟩
    | item => exact hleaf.elim
    | beyond href => exact absurd hleaf (not_isLeaf_of_reference? href)
  · rintro ⟨rfl, rfl⟩
    exact .here _

/-- In a list stands what stands in its items, besides the list. -/
theorem occurs_list {items : List Selector} {path : List Edge} {part : Option Selector}
    (hpart : part ≠ some (.list items)) :
    Occurs (some (.list items)) path part ↔ ∃ item ∈ items, Occurs (some item) path part := by
  constructor
  · intro h
    cases h with
    | here => exact absurd rfl hpart
    | item hitem h => exact ⟨_, hitem, h⟩
    | beyond href => cases href
  · rintro ⟨item, hitem, h⟩
    exact .item hitem h

theorem occurs_list_cons {item : Selector} {items : List Selector} {path : List Edge}
    {part : Option Selector} (hpart : ∀ items, part ≠ some (.list items)) :
    Occurs (some (.list (item :: items))) path part ↔
      Occurs (some item) path part ∨ Occurs (some (.list items)) path part := by
  rw [occurs_list (hpart _), occurs_list (hpart _), List.exists_mem_cons_iff]

/-- At the path of a reference itself stands nothing else. -/
theorem occurs_reference_nil (href : selector.reference? = some reference)
    {part : Option Selector} : Occurs (some selector) [] part ↔ part = some selector := by
  constructor
  · intro h
    cases h with
    | here => rfl
    | item => cases href
  · rintro rfl
    exact .here _

theorem not_occurs_reference_nil (href : selector.reference? = some reference)
    {part : Option Selector} (hleaf : IsLeaf part) : ¬ Occurs (some selector) [] part := by
  rw [occurs_reference_nil href]
  rintro rfl
  exact not_isLeaf_of_reference? href hleaf

/-- Further down stands what stands at the end of the reference. -/
theorem occurs_reference_cons (href : selector.reference? = some reference) {edge : Edge}
    {path : List Edge} {part : Option Selector} :
    Occurs (some selector) (edge :: path) part ↔
      edge = reference.edge ∧ Occurs reference.sub path part := by
  constructor
  · intro h
    cases h with
    | item => cases href
    | beyond href' h =>
      cases href.symm.trans href'
      exact ⟨rfl, h⟩
  · rintro ⟨rfl, h⟩
    exact .beyond href h

theorem Refers.ne_nil {select : Option Selector} {path : List Edge} {scope : Scope}
    (h : Refers select path scope) : path ≠ [] := by
  obtain ⟨before, _, reference, -, -, rfl, -⟩ := h
  simp

/-- Single references have no scope of their own. -/
theorem Refers.single {select : Option Selector} {path : List Edge} {target : String}
    {scope : Scope} (h : Refers select (path ++ [.one target]) scope) : scope = .unrestricted := by
  obtain ⟨before, selector, reference, -, href, hpath, rfl⟩ := h
  obtain ⟨-, hedge⟩ := List.append_inj' hpath rfl
  cases selector with
  | wildcard | field | list => cases href
  | one => cases href; rfl
  | many => cases href; cases hedge

/-- What refers along a many reference is one. -/
theorem Refers.many {select : Option Selector} {path : List Edge} {target : String}
    {sub : Option Selector} {scope : Scope}
    (h : Occurs select path (some (.many target sub scope))) :
    Refers select (path ++ [.many target]) scope :=
  ⟨path, .many target sub scope, ⟨.many target, sub, scope⟩, h, rfl, rfl, rfl⟩

theorem not_refers_leaf {select : Option Selector} (hleaf : IsLeaf select) {path : List Edge}
    {scope : Scope} : ¬ Refers select path scope := by
  rintro ⟨_, selector, _, hoccurs, href, -⟩
  obtain ⟨-, rfl⟩ := (occurs_leaf hleaf).mp hoccurs
  exact not_isLeaf_of_reference? href hleaf

theorem refers_list {items : List Selector} {path : List Edge} {scope : Scope} :
    Refers (some (.list items)) path scope ↔ ∃ item ∈ items, Refers (some item) path scope := by
  constructor
  · rintro ⟨before, part, reference, hoccurs, href, hpath⟩
    have hpart : some part ≠ some (.list items) := by
      rintro ⟨⟩
      cases href
    obtain ⟨item, hitem, hoccurs⟩ := (occurs_list hpart).mp hoccurs
    exact ⟨item, hitem, before, part, reference, hoccurs, href, hpath⟩
  · rintro ⟨item, hitem, before, part, reference, hoccurs, hrest⟩
    exact ⟨before, part, reference, .item hitem hoccurs, hrest⟩

theorem refers_list_cons {item : Selector} {items : List Selector} {path : List Edge}
    {scope : Scope} : Refers (some (.list (item :: items))) path scope ↔
      Refers (some item) path scope ∨ Refers (some (.list items)) path scope := by
  rw [refers_list, refers_list, List.exists_mem_cons_iff]

/-- The references in a reference are itself and those at its end. -/
theorem refers_reference (href : selector.reference? = some reference) {edge : Edge}
    {path : List Edge} {scope : Scope} :
    Refers (some selector) (edge :: path) scope ↔
      edge = reference.edge ∧
        (path = [] ∧ scope = reference.scope ∨ Refers reference.sub path scope) := by
  constructor
  · rintro ⟨before, part, found, hoccurs, hfound, hpath, rfl⟩
    cases before with
    | nil =>
      obtain rfl : part = selector := by
        simpa using (occurs_reference_nil href).mp hoccurs
      cases href.symm.trans hfound
      obtain ⟨rfl, rfl⟩ := List.cons_eq_cons.mp hpath
      exact ⟨rfl, .inl ⟨rfl, rfl⟩⟩
    | cons first before =>
      obtain ⟨rfl, rfl⟩ := List.cons_eq_cons.mp hpath
      obtain ⟨hedge, hbelow⟩ := (occurs_reference_cons href).mp hoccurs
      exact ⟨hedge, .inr ⟨before, part, found, hbelow, hfound, rfl, rfl⟩⟩
  · rintro ⟨rfl, ⟨rfl, rfl⟩ | ⟨before, part, found, hoccurs, hfound, rfl, rfl⟩⟩
    · exact ⟨[], selector, reference, .here _, href, rfl, rfl⟩
    · exact ⟨reference.edge :: before, part, found, .beyond href hoccurs, hfound, rfl, rfl⟩

end Selector

end LinkedDocs
