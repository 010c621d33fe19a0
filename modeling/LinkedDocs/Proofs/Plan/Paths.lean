import LinkedDocs.Plan

/-!
# Paths through a plan

An `Edge` is one step along a reference, and a path of edges leads from the root of a plan to a node
(`Plan.node?`). Loading a selector puts nodes in and lets the present ones read more, but it takes
nothing away:

> `load_extends`: what a path leads to before, it leads to after, and there at least as much is
> read.

What loading does is a chain of a few changes: the root reads more, a child changes, or a new leaf
changes and is put in. `load_preserves` is the induction over such chains; every fact about loading
that does not depend on the selector is an instance of it.
-/

namespace LinkedDocs

/-- Writing into a sorted list does not touch what is under other names. -/
theorem Dict.lookup_putSorted {α : Type} (name other : String) (value : α)
    (entries : List (String × α)) :
    List.lookup other (putSorted name value entries)
      = if other = name then some value else entries.lookup other := by
  induction entries with
  | nil =>
    by_cases h : other = name
    · simp [putSorted, h]
    · simp [putSorted, Dict.lookup_cons, h, Ne.symm h]
  | cons pair rest ih =>
    obtain ⟨key, old⟩ := pair
    rw [putSorted]
    split
    · rw [Dict.lookup_cons]
      by_cases h : other = name
      · simp [h]
      · simp [h, Ne.symm h]
    · split
      · next hgt =>
        have hne : key ≠ name := by
          rintro rfl
          exact Std.lt_irrefl hgt
        rw [Dict.lookup_cons, Dict.lookup_cons, ih]
        by_cases h : other = name
        · simp [h, hne]
        · simp [h]
      · next hlt hgt =>
        have heq : name = key := Std.le_antisymm (Std.not_lt.mp hgt) (Std.not_lt.mp hlt)
        subst heq
        rw [Dict.lookup_cons, Dict.lookup_cons]
        by_cases h : other = name
        · simp [h]
        · simp [h, Ne.symm h]

theorem mem_putSorted {α : Type} {name : String} {value : α} {entries : List (String × α)}
    {pair : String × α} (h : pair ∈ putSorted name value entries) :
    pair = (name, value) ∨ pair ∈ entries := by
  induction entries with
  | nil => exact .inl (List.mem_singleton.mp h)
  | cons head rest ih =>
    obtain ⟨key, old⟩ := head
    rw [putSorted] at h
    split at h
    · exact List.mem_cons.mp h
    · split at h
      · rcases List.mem_cons.mp h with rfl | hrest
        · exact .inr (List.mem_cons_self ..)
        · exact (ih hrest).imp_right (List.mem_cons_of_mem _)
      · exact (List.mem_cons.mp h).imp_right (List.mem_cons_of_mem _)

/-- A step along a reference. -/
inductive Edge where
  | one (target : String)
  | many (target : String)
  deriving DecidableEq

/-- The collection that an edge leads to. -/
def Edge.target : Edge → String
  | .one target => target
  | .many target => target

namespace Plan

/-- What an edge leads to from the root. -/
def child? (p : Plan) : Edge → Option Plan
  | .one target => p.ones.lookup target
  | .many target => p.manys.lookup target

/-- Puts a child in. -/
def withChild (p : Plan) (edge : Edge) (child : Plan) : Plan :=
  match edge with
  | .one target => p.withOne target child
  | .many target => p.withMany target child

/-- What a path leads to. -/
def node? : Plan → List Edge → Option Plan
  | p, [] => some p
  | p, edge :: path => (p.child? edge).bind (·.node? path)

@[simp] theorem node?_nil (p : Plan) : p.node? [] = some p := rfl

theorem node?_cons (p : Plan) (edge : Edge) (path : List Edge) :
    p.node? (edge :: path) = (p.child? edge).bind (·.node? path) := rfl

@[simp] theorem info_withChild (p : Plan) (edge : Edge) (child : Plan) :
    (p.withChild edge child).info = p.info := by
  cases edge <;> rfl

theorem child?_withChild (p : Plan) (edge other : Edge) (child : Plan) :
    (p.withChild edge child).child? other
      = if other = edge then some child else p.child? other := by
  cases edge with
  | one target =>
    cases other with
    | one name =>
      show List.lookup name (putSorted target child p.ones) = _
      rw [Dict.lookup_putSorted]
      by_cases h : name = target <;> simp [h, child?]
    | many name => simp [withChild, withOne, child?, manys]
  | many target =>
    cases other with
    | one name => simp [withChild, withMany, child?, ones]
    | many name =>
      show List.lookup name (putSorted target child p.manys) = _
      rw [Dict.lookup_putSorted]
      by_cases h : name = target <;> simp [h, child?]

@[simp] theorem child?_leaf (id : Nat) (collection : String) (scope : Scope) (edge : Edge) :
    (leaf id collection scope).child? edge = none := by
  cases edge <;> rfl

@[simp] theorem child?_readAll (p : Plan) (edge : Edge) :
    p.readAll.child? edge = p.child? edge := by
  cases p
  cases edge <;> rfl

@[simp] theorem child?_readField (p : Plan) (name : String) (edge : Edge) :
    (p.readField name).child? edge = p.child? edge := by
  cases p
  cases edge <;> rfl

/-! ## Loading as a chain of changes -/

/-- The child that is loaded into at an edge, with the number of the next node: the one that is
there, or else a new leaf. -/
def enter (p : Plan) (edge : Edge) (scope : Scope) (next : Nat) : Plan × Nat :=
  match p.child? edge with
  | some child => (child, next)
  | none => (leaf next edge.target scope, next + 1)

theorem enter_of_some {p : Plan} {edge : Edge} {child : Plan} (h : p.child? edge = some child)
    (scope : Scope) (next : Nat) : p.enter edge scope next = (child, next) := by
  rw [enter, h]

theorem enter_of_none {p : Plan} {edge : Edge} (h : p.child? edge = none) (scope : Scope)
    (next : Nat) : p.enter edge scope next = (leaf next edge.target scope, next + 1) := by
  rw [enter, h]

theorem of_map_loadSub {sub : Option Selector} (put : Plan → Plan) (start : Plan × Nat) {p' : Plan}
    {n' : Nat}
    (h : (loadSub sub start.1 start.2).map (fun (child, next) => (put child, next))
      = .ok (p', n')) :
    ∃ child', loadSub sub start.1 start.2 = .ok (child', n') ∧ p' = put child' := by
  cases hsub : loadSub sub start.1 start.2 with
  | error error => simp [hsub, Except.map] at h
  | ok loaded =>
    simp only [hsub, Except.map] at h
    cases h
    exact ⟨loaded.1, rfl, rfl⟩

/-- Loading a single reference is loading into a child. -/
theorem of_load_one {target : String} {sub : Option Selector} {p p' : Plan} {n n' : Nat}
    (h : load (.one target sub) p n = .ok (p', n')) :
    ∃ child', loadSub sub (p.enter (.one target) .unrestricted n).1
        (p.enter (.one target) .unrestricted n).2 = .ok (child', n') ∧
      p' = p.withChild (.one target) child' := by
  rw [load] at h
  cases hfind : p.child? (.one target) with
  | some child =>
    rw [enter_of_some hfind]
    simp only [show p.ones.lookup target = some child from hfind] at h
    exact of_map_loadSub (p.withOne target) (child, n) h
  | none =>
    rw [enter_of_none hfind]
    simp only [show p.ones.lookup target = none from hfind] at h
    exact of_map_loadSub (p.withOne target) (leaf n target .unrestricted, n + 1) h

/-- Loading a many reference is loading into a child, which has the same scope if it is there. -/
theorem of_load_many {target : String} {sub : Option Selector} {scope : Scope} {p p' : Plan}
    {n n' : Nat} (h : load (.many target sub scope) p n = .ok (p', n')) :
    (∀ child, p.child? (.many target) = some child → child.info.scope.same scope = true) ∧
      ∃ child', loadSub sub (p.enter (.many target) scope n).1
          (p.enter (.many target) scope n).2 = .ok (child', n') ∧
        p' = p.withChild (.many target) child' := by
  rw [load] at h
  cases hfind : p.child? (.many target) with
  | some child =>
    rw [enter_of_some hfind]
    simp only [show p.manys.lookup target = some child from hfind] at h
    split at h
    · next hsame =>
      refine ⟨fun child' hchild => ?_, of_map_loadSub (p.withMany target) (child, n) h⟩
      cases hchild
      exact hsame
    · cases h
  | none =>
    rw [enter_of_none hfind]
    simp only [show p.manys.lookup target = none from hfind] at h
    refine ⟨fun child' hchild => ?_,
      of_map_loadSub (p.withMany target) (leaf n target scope, n + 1) h⟩
    cases hchild

/-- Loading one item after another. -/
theorem of_loadItems_cons {item : Selector} {items : List Selector} {p p' : Plan} {n n' : Nat}
    (h : loadItems (item :: items) p n = .ok (p', n')) :
    ∃ q k, load item p n = .ok (q, k) ∧ loadItems items q k = .ok (p', n') := by
  rw [loadItems] at h
  cases hitem : load item p n with
  | error error => simp [hitem] at h
  | ok loaded =>
    obtain ⟨q, k⟩ := loaded
    simp only [hitem] at h
    exact ⟨q, k, rfl, h⟩

/-- A relation between plans, with the numbers of their next nodes, that every change of which
loading is made keeps. -/
structure Chain (R : Plan → Nat → Plan → Nat → Prop) : Prop where
  refl : ∀ p n, R p n p n
  trans : ∀ {p₁ n₁ p₂ n₂ p₃ n₃}, R p₁ n₁ p₂ n₂ → R p₂ n₂ p₃ n₃ → R p₁ n₁ p₃ n₃
  readAll : ∀ p n, R p n p.readAll n
  readField : ∀ name p n, R p n (p.readField name) n
  child : ∀ {p n edge scope child' n'},
    R (p.enter edge scope n).1 (p.enter edge scope n).2 child' n' →
      R p n (p.withChild edge child') n'

variable {R : Plan → Nat → Plan → Nat → Prop}

mutual

/-- What holds of every change that loading is made of, holds of loading. -/
theorem load_preserves (chain : Chain R) : ∀ (selector : Selector) {p p' : Plan} {n n' : Nat},
    load selector p n = .ok (p', n') → R p n p' n'
  | .wildcard, p, p', n, n', h => by
    cases h
    exact chain.readAll p n
  | .field name, p, p', n, n', h => by
    cases h
    exact chain.readField name p n
  | .list items, p, p', n, n', h => loadItems_preserves chain items h
  | .one target sub, p, p', n, n', h => by
    obtain ⟨child', hsub, rfl⟩ := of_load_one h
    exact chain.child (loadSub_preserves chain sub hsub)
  | .many target sub scope, p, p', n, n', h => by
    obtain ⟨-, child', hsub, rfl⟩ := of_load_many h
    exact chain.child (loadSub_preserves chain sub hsub)

theorem loadSub_preserves (chain : Chain R) :
    ∀ (sub : Option Selector) {p p' : Plan} {n n' : Nat},
      loadSub sub p n = .ok (p', n') → R p n p' n'
  | none, p, p', n, n', h => by
    cases h
    exact chain.readAll p n
  | some selector, p, p', n, n', h => load_preserves chain selector h

theorem loadItems_preserves (chain : Chain R) :
    ∀ (items : List Selector) {p p' : Plan} {n n' : Nat},
      loadItems items p n = .ok (p', n') → R p n p' n'
  | [], p, p', n, n', h => by
    cases h
    exact chain.refl p n
  | item :: items, p, p', n, n', h => by
    obtain ⟨q, k, hitem, hitems⟩ := of_loadItems_cons h
    exact chain.trans (load_preserves chain item hitem) (loadItems_preserves chain items hitems)

end

/-! ## Nothing is taken away -/

/-- At the second node at least as much is read of the same documents. -/
structure Within (p p' : Plan) : Prop where
  id : p'.info.id = p.info.id
  collection : p'.info.collection = p.info.collection
  scope : p'.info.scope = p.info.scope
  full : p.info.full = true → p'.info.full = true
  fields : ∀ name ∈ p.info.fields, name ∈ p'.info.fields

theorem Within.refl (p : Plan) : Within p p := ⟨rfl, rfl, rfl, fun h => h, fun _ h => h⟩

theorem Within.trans {p q r : Plan} (h : Within p q) (h' : Within q r) : Within p r :=
  ⟨h'.id.trans h.id, h'.collection.trans h.collection, h'.scope.trans h.scope,
    fun hfull => h'.full (h.full hfull), fun name hname => h'.fields name (h.fields name hname)⟩

/-- What a path leads to in the first plan, it leads to in the second one. -/
def Extends (p p' : Plan) : Prop :=
  ∀ path node, p.node? path = some node → ∃ node', p'.node? path = some node' ∧ Within node node'

theorem Extends.refl (p : Plan) : Extends p p := fun _ node h => ⟨node, h, .refl node⟩

theorem Extends.trans {p q r : Plan} (h : Extends p q) (h' : Extends q r) : Extends p r := by
  intro path node hnode
  obtain ⟨node', hnode', hwithin⟩ := h path node hnode
  obtain ⟨node'', hnode'', hwithin'⟩ := h' path node' hnode'
  exact ⟨node'', hnode'', hwithin.trans hwithin'⟩

/-- The root of a plan that extends another one. -/
theorem Extends.root {p p' : Plan} (h : Extends p p') : Within p p' := by
  obtain ⟨node', hnode', hwithin⟩ := h [] p rfl
  cases hnode'
  exact hwithin

/-- The children of a plan that extends another one. -/
theorem Extends.child {p p' child : Plan} {edge : Edge} (h : Extends p p')
    (hchild : p.child? edge = some child) :
    ∃ child', p'.child? edge = some child' ∧ Extends child child' := by
  obtain ⟨child', hchild', -⟩ := h [edge] child (by rw [node?_cons, hchild]; rfl)
  rw [node?_cons] at hchild'
  cases hp : p'.child? edge with
  | none => simp [hp] at hchild'
  | some found =>
    refine ⟨found, rfl, fun path node hnode => ?_⟩
    have hthere : p.node? (edge :: path) = some node := by
      rw [node?_cons, hchild]
      exact hnode
    obtain ⟨node', hnode', hwithin⟩ := h (edge :: path) node hthere
    rw [node?_cons, hp] at hnode'
    exact ⟨node', hnode', hwithin⟩

/-- A plan with the same references from the root extends the other one if its root does. -/
theorem Extends.of_root {p p' : Plan} (hroot : Within p p')
    (hchild : ∀ edge, p'.child? edge = p.child? edge) : Extends p p' := by
  intro path node hnode
  cases path with
  | nil =>
    cases hnode
    exact ⟨p', rfl, hroot⟩
  | cons edge path =>
    refine ⟨node, ?_, .refl node⟩
    rw [node?_cons] at hnode ⊢
    rw [hchild]
    exact hnode

theorem extends_withChild {p child' : Plan} {edge : Edge}
    (h : ∀ child, p.child? edge = some child → Extends child child') :
    Extends p (p.withChild edge child') := by
  intro path node hnode
  cases path with
  | nil =>
    cases hnode
    have hinfo := info_withChild p edge child'
    exact ⟨p.withChild edge child', rfl, by rw [hinfo], by rw [hinfo], by rw [hinfo],
      fun hfull => by rw [hinfo]; exact hfull, fun name hname => by rw [hinfo]; exact hname⟩
  | cons other path =>
    rw [node?_cons] at hnode ⊢
    rw [child?_withChild]
    by_cases heq : other = edge
    · -- along the edge the child decides
      subst heq
      cases hp : p.child? other with
      | none => simp [hp] at hnode
      | some child =>
        rw [hp] at hnode
        rw [if_pos rfl]
        exact h child hp path node hnode
    · rw [if_neg heq]
      exact ⟨node, hnode, .refl node⟩

theorem chain_extends : Chain fun p _ p' _ => Extends p p' where
  refl p _ := .refl p
  trans h h' := h.trans h'
  readAll p _ := by
    refine .of_root ?_ (child?_readAll p)
    cases p
    exact ⟨rfl, rfl, rfl, fun _ => rfl, fun _ h => h⟩
  readField name p _ := by
    refine .of_root ?_ (child?_readField p name)
    cases p
    exact ⟨rfl, rfl, rfl, fun h => h, fun other h => mem_insertName.mpr (.inr h)⟩
  child h := by
    refine extends_withChild fun child hchild => ?_
    rwa [enter_of_some hchild] at h

/-- Loading takes nothing away. -/
theorem load_extends {selector : Selector} {p p' : Plan} {n n' : Nat}
    (h : load selector p n = .ok (p', n')) : Extends p p' := load_preserves chain_extends selector h

theorem loadSub_extends {sub : Option Selector} {p p' : Plan} {n n' : Nat}
    (h : loadSub sub p n = .ok (p', n')) : Extends p p' := loadSub_preserves chain_extends sub h

theorem loadItems_extends {items : List Selector} {p p' : Plan} {n n' : Nat}
    (h : loadItems items p n = .ok (p', n')) : Extends p p' :=
  loadItems_preserves chain_extends items h

end Plan

end LinkedDocs
