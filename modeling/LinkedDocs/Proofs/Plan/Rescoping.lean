import LinkedDocs.Proofs.Plan.Serving

/-!
# Selectors in the scopes of a plan

Many references on one path share a node, and what is searched with is the scope of the node, not
their own. `Selector.scopedBy` writes the scope of its node into every many reference of a selector.
What a plan is made of, it serves when its own scopes are asked for, whether the scopes that share a
node agree or not:

> `servesSub_scopedBy`: a plan serves what has been loaded into it, in the scopes of the plan.

The scope of the root stands apart. No selector can name it, so it takes no part in loading
(`build_withScope`) or in what a selector becomes (`subScopedBy_withScope`).
-/

namespace LinkedDocs

namespace Selector

mutual

/-- The selector with every many reference in the scope of its node. -/
def scopedBy : Selector → Plan → Selector
  | .wildcard, _ => .wildcard
  | .field name, _ => .field name
  | .list items, plan => .list (itemsScopedBy items plan)
  | .one target sub, plan => .one target (subScopedBy sub (plan.child? (.one target)))
  | .many target sub scope, plan =>
    .many target (subScopedBy sub (plan.child? (.many target)))
      (((plan.child? (.many target)).map (·.info.scope)).getD scope)

/-- What stands below a reference in the scopes of the child that the reference leads to. -/
def subScopedBy : Option Selector → Option Plan → Option Selector
  | some selector, some child => some (scopedBy selector child)
  | some selector, none => some selector
  | none, _ => none

/-- Several selectors in the scopes of a plan. -/
def itemsScopedBy : List Selector → Plan → List Selector
  | [], _ => []
  | item :: items, plan => scopedBy item plan :: itemsScopedBy items plan

end

end Selector

namespace Plan

open Selector (scopedBy subScopedBy itemsScopedBy)

/-! ## What is served -/

mutual

/-- What has been loaded into a plan is served by all that extends the plan, in the scopes there. -/
theorem serves_scopedBy : ∀ {selector : Selector} {p p' q : Plan} {n n' : Nat},
    load selector p n = .ok (p', n') → Extends p' q → Serves (scopedBy selector q) q
  | .wildcard, p, _, _, _, _, h, hext => by
    cases h
    exact hext.root.full (full_readAll p)
  | .field name, p, _, _, _, _, h, hext => by
    cases h
    cases p
    exact hext.root.fields name (mem_insertName.mpr (.inl rfl))
  | .list _, _, _, _, _, _, h, hext => servesItems_scopedBy h hext
  | .one target sub, p, _, q, _, _, h, hext => by
    obtain ⟨child', hsub, rfl⟩ := of_load_one h
    obtain ⟨child, hchild, hbelow⟩ := hext.child (child?_withChild_self p child' (.one target))
    refine ⟨child, hchild, ?_⟩
    rw [hchild]
    exact servesSub_scopedBy hsub hbelow
  | .many target sub scope, p, _, q, _, _, h, hext => by
    obtain ⟨-, child', hsub, rfl⟩ := of_load_many h
    obtain ⟨child, hchild, hbelow⟩ := hext.child (child?_withChild_self p child' (.many target))
    refine ⟨child, hchild, ?_, ?_⟩
    · rw [hchild]
      exact .refl child.info.scope
    · rw [hchild]
      exact servesSub_scopedBy hsub hbelow

theorem servesSub_scopedBy : ∀ {sub : Option Selector} {p p' q : Plan} {n n' : Nat},
    loadSub sub p n = .ok (p', n') → Extends p' q → ServesSub (subScopedBy sub (some q)) q
  | none, p, _, _, _, _, h, hext => by
    cases h
    exact hext.root.full (full_readAll p)
  | some _, _, _, _, _, _, h, hext => serves_scopedBy h hext

theorem servesItems_scopedBy : ∀ {items : List Selector} {p p' q : Plan} {n n' : Nat},
    loadItems items p n = .ok (p', n') → Extends p' q → ServesItems (itemsScopedBy items q) q
  | [], _, _, _, _, _, _, _ => trivial
  | item :: items, _, _, _, _, _, h, hext => by
    obtain ⟨_, _, hitem, hitems⟩ := of_loadItems_cons h
    exact ⟨serves_scopedBy hitem ((loadItems_extends hitems).trans hext),
      servesItems_scopedBy hitems hext⟩

end

/-! ## The scope of the root -/

/-- The plan with another scope at the root. -/
def withScope : Plan → Scope → Plan
  | .node info ones manys, scope => .node { info with scope := scope } ones manys

theorem child?_withScope (p : Plan) (scope : Scope) (edge : Edge) :
    (p.withScope scope).child? edge = p.child? edge := by
  cases p
  cases edge <;> rfl

@[simp] theorem info_withScope (p : Plan) (scope : Scope) :
    (p.withScope scope).info = { p.info with scope := scope } := by
  cases p
  rfl

@[simp] theorem ones_withScope (p : Plan) (scope : Scope) : (p.withScope scope).ones = p.ones := by
  cases p
  rfl

@[simp] theorem manys_withScope (p : Plan) (scope : Scope) :
    (p.withScope scope).manys = p.manys := by
  cases p
  rfl

theorem projection_withScope (p : Plan) (scope : Scope) (h : scope.order = p.info.scope.order) :
    (p.withScope scope).projection = p.projection := by
  rw [projection, projection, info_withScope, ones_withScope, manys_withScope, h]

theorem withOne_withScope (p : Plan) (scope : Scope) (target : String) (child : Plan) :
    (p.withScope scope).withOne target child = (p.withOne target child).withScope scope := by
  cases p
  rfl

theorem withMany_withScope (p : Plan) (scope : Scope) (target : String) (child : Plan) :
    (p.withScope scope).withMany target child = (p.withMany target child).withScope scope := by
  cases p
  rfl

variable (scope : Scope)

/-- Putting a child in below a root with another scope. -/
theorem map_withScope {put put' : Plan → Plan}
    (hput : ∀ child, put' child = (put child).withScope scope)
    (below : Except QueryError (Plan × Nat)) :
    below.map (fun (child, next) => (put' child, next))
      = (below.map fun (child, next) => (put child, next)).map
          (Prod.map (·.withScope scope) id) := by
  cases below with
  | error error => rfl
  | ok loaded => exact congrArg (fun p => Except.ok (p, _)) (hput loaded.1)

mutual

/-- Loading takes no notice of the scope of the root. -/
theorem load_withScope : ∀ (selector : Selector) (p : Plan) (n : Nat),
    load selector (p.withScope scope) n
      = (load selector p n).map (Prod.map (·.withScope scope) id)
  | .wildcard, .node .., _ | .field _, .node .., _ => rfl
  | .list items, p, n => by
    rw [load, load]
    exact loadItems_withScope items p n
  | .one target sub, p, n => by
    rw [load, load, ones_withScope]
    cases p.ones.lookup target with
    | some child => exact map_withScope scope (withOne_withScope p scope target) _
    | none => exact map_withScope scope (withOne_withScope p scope target) _
  | .many target sub own, p, n => by
    rw [load, load, manys_withScope]
    cases p.manys.lookup target with
    | some child =>
      dsimp only
      split
      · exact map_withScope scope (withMany_withScope p scope target) _
      · rfl
    | none => exact map_withScope scope (withMany_withScope p scope target) _

theorem loadItems_withScope : ∀ (items : List Selector) (p : Plan) (n : Nat),
    loadItems items (p.withScope scope) n
      = (loadItems items p n).map (Prod.map (·.withScope scope) id)
  | [], _, _ => rfl
  | item :: items, p, n => by
    rw [loadItems, loadItems, load_withScope item p n]
    cases load item p n with
    | error error => rfl
    | ok loaded => exact loadItems_withScope items loaded.1 loaded.2

end

/-- A plan can be built for every scope of the root or for none, and is the same but for that scope.
-/
theorem build_eq_withScope (collection : String) (select : Option Selector) (own : Scope) :
    build collection select scope = (build collection select own).map (·.withScope scope) := by
  have hload : loadSub select ((leaf 0 collection own).withScope scope) 1
      = (loadSub select (leaf 0 collection own) 1).map (Prod.map (·.withScope scope) id) := by
    cases select with
    | none => rfl
    | some selector => exact load_withScope scope selector _ 1
  change (loadSub select ((leaf 0 collection own).withScope scope) 1).map Prod.fst = _
  rw [hload, build]
  cases loadSub select (leaf 0 collection own) 1 <;> rfl

/-- A plan that can be built for one scope of the root can be built for every other one. -/
theorem build_withScope {collection : String} {select : Option Selector} {own : Scope} {plan : Plan}
    (h : build collection select own = .ok plan) (scope : Scope) :
    build collection select scope = .ok (plan.withScope scope) := by
  rw [build_eq_withScope scope collection select own, h]
  rfl

end Plan

namespace Selector

variable {plan : Plan} (scope : Scope)

mutual

theorem scopedBy_withScope : ∀ selector : Selector,
    scopedBy selector (plan.withScope scope) = scopedBy selector plan
  | .wildcard => rfl
  | .field _ => rfl
  | .list items => by rw [scopedBy, scopedBy, itemsScopedBy_withScope items]
  | .one target sub => by rw [scopedBy, scopedBy, Plan.child?_withScope]
  | .many target sub own => by rw [scopedBy, scopedBy, Plan.child?_withScope]

theorem itemsScopedBy_withScope : ∀ items : List Selector,
    itemsScopedBy items (plan.withScope scope) = itemsScopedBy items plan
  | [] => rfl
  | item :: items => by
    rw [itemsScopedBy, itemsScopedBy, scopedBy_withScope item, itemsScopedBy_withScope items]

end

/-- What a selector becomes does not depend on the scope of the root. -/
theorem subScopedBy_withScope (sub : Option Selector) :
    subScopedBy sub (some (plan.withScope scope)) = subScopedBy sub (some plan) := by
  cases sub with
  | none => rfl
  | some selector => exact congrArg some (scopedBy_withScope scope selector)

end Selector

end LinkedDocs
