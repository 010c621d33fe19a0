import LinkedDocs.Proofs.Plan.Parts

/-!
# The plan as the trie of a selector

Every part of a selector stands at a path (`Selector.Occurs`), and the plan is the trie of these
paths:

> `build_trie`: a plan is built unless two many references on one path differ in scope. It has a
> node for the path of each reference and for the root, where it reads the fields that stand there;
> it reads whole documents where a part is absent or a wildcard, and its scope is that of the
> references.

Parts that stand side by side are loaded into one plan, one after the other, so a node may be made
for one of them and be read through another. What loading does is therefore told path by path, as
what it adds to the plan that is there (`Adds`); this holds of one part after another, and goes from
a child to its parent. Which of two scopes that differ is refused depends on the order in which they
are loaded, but not that one is: `load_error` finds, for the reference that is refused, one on the
same path that has been loaded before.
-/

namespace LinkedDocs

namespace Plan

open Selector (Reference Occurs Refers Conflicting)

/-- There is a node at the end of the path, and what is said of nodes holds of it. -/
def At (p : Plan) (path : List Edge) (P : PlanNode → Prop) : Prop :=
  ∃ node, p.node? path = some node ∧ P node.info

/-- The plan reads the field at the end of the path. -/
def ReadsField (p : Plan) (path : List Edge) (name : String) : Prop :=
  p.At path fun info => name ∈ info.fields

/-- The plan reads whole documents at the end of the path. -/
def ReadsWhole (p : Plan) (path : List Edge) : Prop := p.At path fun info => info.full = true

/-- The node at the end of the path has the scope. -/
def HasScope (p : Plan) (path : List Edge) (scope : Scope) : Prop :=
  p.At path fun info => info.scope = scope

variable {P : PlanNode → Prop}

theorem at_nil {p : Plan} : p.At [] P ↔ P p.info := by simp [At]

theorem at_of_node? {p node : Plan} {path : List Edge} (h : p.node? path = some node) :
    p.At path P ↔ P node.info := by simp [At, h]

theorem at_cons_of_some {p child : Plan} {edge : Edge} {path : List Edge}
    (h : p.child? edge = some child) : p.At (edge :: path) P ↔ child.At path P := by
  simp [At, node?_cons, h]

theorem not_at_cons_of_none {p : Plan} {edge : Edge} {path : List Edge}
    (h : p.child? edge = none) : ¬ p.At (edge :: path) P := by
  simp [At, node?_cons, h]

/-- A leaf has a root that reads nothing, and no other node. -/
theorem at_leaf {id : Nat} {collection : String} {scope : Scope} {path : List Edge} :
    (leaf id collection scope).At path P ↔ path = [] ∧ P ⟨id, collection, [], false, scope⟩ := by
  cases path with
  | nil => simp [at_nil, leaf, info]
  | cons edge path => simp [not_at_cons_of_none (child?_leaf id collection scope edge)]

theorem not_at_leaf_cons {id : Nat} {collection : String} {scope : Scope} {edge : Edge}
    {path : List Edge} : ¬ (leaf id collection scope).At (edge :: path) P := by simp [at_leaf]

theorem at_cons_congr {p p' : Plan} (h : ∀ edge, p'.child? edge = p.child? edge) {edge : Edge}
    {path : List Edge} : p'.At (edge :: path) P ↔ p.At (edge :: path) P := by
  simp only [At, node?_cons, h]

theorem at_withChild_self {p child : Plan} {edge : Edge} {path : List Edge} :
    (p.withChild edge child).At (edge :: path) P ↔ child.At path P :=
  at_cons_of_some (by rw [child?_withChild, if_pos rfl])

theorem at_withChild_other {p child : Plan} {edge other : Edge} (h : other ≠ edge)
    {path : List Edge} :
    (p.withChild edge child).At (other :: path) P ↔ p.At (other :: path) P := by
  simp only [At, node?_cons, child?_withChild, if_neg h]

/-- The child that is loaded into shows what was there, or is a new leaf. -/
theorem at_enter {p : Plan} {edge : Edge} {scope : Scope} {n : Nat} {path : List Edge} :
    (p.enter edge scope n).1.At path P ↔
      p.At (edge :: path) P ∨
        (p.child? edge = none ∧ path = [] ∧ P ⟨n, edge.target, [], false, scope⟩) := by
  cases h : p.child? edge with
  | some child =>
    rw [enter_of_some h, at_cons_of_some h]
    simp
  | none =>
    rw [enter_of_none h, at_leaf]
    simp [not_at_cons_of_none h]

/-! ## What loading adds -/

/-- The second plan shows what the first one shows, and what the selector asks for. -/
structure Adds (select : Option Selector) (p p' : Plan) : Prop where
  /-- What is read stays where it is. -/
  kept : Extends p p'
  /-- A scope was there, or is that of a reference. -/
  scope : ∀ {path own}, p'.HasScope path own → p.HasScope path own ∨ Refers select path own
  /-- Every reference leads to a node with its scope. -/
  refers : ∀ {path own}, Refers select path own →
    ∃ there, p'.HasScope path there ∧ there.same own = true
  field : ∀ path name, p'.ReadsField path name ↔
    p.ReadsField path name ∨ Occurs select path (some (.field name))
  whole : ∀ path, p'.ReadsWhole path ↔
    p.ReadsWhole path ∨ Occurs select path none ∨ Occurs select path (some .wildcard)

/-- Loading something that is neither a list nor a reference changes the root only. -/
theorem Adds.of_leaf {select : Option Selector} (hleaf : Selector.IsLeaf select) {p p' : Plan}
    (hchild : ∀ edge, p'.child? edge = p.child? edge) (hwithin : Within p p')
    (hfield : ∀ name, name ∈ p'.info.fields ↔ name ∈ p.info.fields ∨ some (.field name) = select)
    (hfull : p'.info.full = true ↔
      p.info.full = true ∨ none = select ∨ some .wildcard = select) : Adds select p p' where
  kept := .of_root hwithin hchild
  scope {path own} h := by
    refine .inl ?_
    cases path with
    | nil =>
      rw [HasScope, at_nil] at h ⊢
      rw [← hwithin.scope]
      exact h
    | cons edge path => exact (at_cons_congr hchild).mp h
  refers h := absurd h (Selector.not_refers_leaf hleaf)
  field path name := by
    rw [Selector.occurs_leaf hleaf]
    cases path with
    | nil => simpa [ReadsField, at_nil] using hfield name
    | cons edge path => simpa [ReadsField] using at_cons_congr hchild
  whole path := by
    rw [Selector.occurs_leaf hleaf, Selector.occurs_leaf hleaf]
    cases path with
    | nil => simpa [ReadsWhole, at_nil] using hfull
    | cons edge path => simpa [ReadsWhole] using at_cons_congr hchild

/-- An absent selector and a wildcard read whole documents. -/
theorem adds_readAll {select : Option Selector} (h : select = none ∨ select = some .wildcard)
    (p : Plan) : Adds select p p.readAll := by
  have hleaf : Selector.IsLeaf select := by rcases h with rfl | rfl <;> trivial
  cases p
  refine .of_leaf hleaf (child?_readAll _) ⟨rfl, rfl, rfl, fun _ => rfl, fun _ hname => hname⟩
    (fun name => ?_) ?_
  · rcases h with rfl | rfl <;> simp [readAll, info]
  · rcases h with rfl | rfl <;> simp [readAll, info]

theorem adds_readField (name : String) (p : Plan) :
    Adds (some (.field name)) p (p.readField name) := by
  have hleaf : Selector.IsLeaf (some (.field name)) := trivial
  cases p
  refine .of_leaf hleaf (child?_readField _ name)
    ⟨rfl, rfl, rfl, fun hfull => hfull, fun _ hname => mem_insertName.mpr (.inr hname)⟩
    (fun other => ?_) ?_
  · simp [readField, info, or_comm]
  · simp [readField, info]

theorem adds_nil (p : Plan) : Adds (some (.list [])) p p where
  kept := .refl p
  scope h := .inl h
  refers h := by
    obtain ⟨item, hitem, -⟩ := Selector.refers_list.mp h
    cases hitem
  field path name := by simp [Selector.occurs_list]
  whole path := by simp [Selector.occurs_list]

/-- One item after the others. -/
theorem Adds.cons {item : Selector} {items : List Selector} {p q r : Plan}
    (h : Adds (some item) p q) (h' : Adds (some (.list items)) q r) :
    Adds (some (.list (item :: items))) p r where
  kept := h.kept.trans h'.kept
  scope {path own} hown := by
    rw [Selector.refers_list_cons]
    rcases h'.scope hown with hthere | hlater
    · exact (h.scope hthere).imp_right .inl
    · exact .inr (.inr hlater)
  refers {path own} hown := by
    rw [Selector.refers_list_cons] at hown
    rcases hown with hitem | hitems
    · obtain ⟨there, ⟨node, hnode, hscope⟩, hsame⟩ := h.refers hitem
      obtain ⟨node', hnode', hwithin⟩ := h'.kept path node hnode
      exact ⟨there, ⟨node', hnode', hwithin.scope.trans hscope⟩, hsame⟩
    · exact h'.refers hitems
  field path name := by
    rw [h'.field, h.field, or_assoc, Selector.occurs_list_cons (by simp)]
  whole path := by
    rw [h'.whole, h.whole, Selector.occurs_list_cons (by simp), Selector.occurs_list_cons (by simp)]
    simp only [or_assoc, or_left_comm]

/-- What is added to a child that is loaded into, is added to its parent below the edge. -/
theorem at_withChild_iff {p child' : Plan} {edge : Edge} {scope : Scope} {n : Nat}
    {Q : List Edge → Prop} (hnew : ¬ P ⟨n, edge.target, [], false, scope⟩)
    (h : ∀ path, child'.At path P ↔ (p.enter edge scope n).1.At path P ∨ Q path) (other : Edge)
    (path : List Edge) :
    (p.withChild edge child').At (other :: path) P ↔
      p.At (other :: path) P ∨ (other = edge ∧ Q path) := by
  by_cases heq : other = edge
  · subst heq
    rw [at_withChild_self, h, at_enter]
    simp [hnew]
  · rw [at_withChild_other heq]
    simp [heq]

theorem Adds.of_child {selector : Selector} (reference : Reference)
    (href : selector.reference? = some reference) {p child' : Plan} {n : Nat}
    (hsame : ∀ child, p.child? reference.edge = some child →
      child.info.scope.same reference.scope = true)
    (h : Adds reference.sub (p.enter reference.edge reference.scope n).1 child') :
    Adds (some selector) p (p.withChild reference.edge child') where
  kept := extends_withChild fun child hchild => by
    have hkept := h.kept
    rwa [enter_of_some hchild] at hkept
  scope {path own} hown := by
    cases path with
    | nil =>
      rw [HasScope, at_nil, info_withChild, ← at_nil (P := fun info => info.scope = own)] at hown
      exact .inl hown
    | cons edge path =>
      by_cases hedge : edge = reference.edge
      · subst hedge
        rw [Selector.refers_reference href]
        rcases h.scope (at_withChild_self.mp hown) with hthere | hbelow
        · rcases at_enter.mp hthere with hthere | ⟨-, hnil, hscope⟩
          · exact .inl hthere
          · exact .inr ⟨rfl, .inl ⟨hnil, hscope.symm⟩⟩
        · exact .inr ⟨rfl, .inr hbelow⟩
      · exact .inl ((at_withChild_other hedge).mp hown)
  refers {path own} hown := by
    cases path with
    | nil => exact absurd rfl hown.ne_nil
    | cons edge path =>
      obtain ⟨rfl, ⟨rfl, rfl⟩ | hbelow⟩ := (Selector.refers_reference href).mp hown
      · -- the child that is loaded into has a scope that is the same
        have hscope := h.kept.root.scope
        refine ⟨child'.info.scope, at_withChild_self.mpr (at_nil.mpr rfl), ?_⟩
        cases hchild : p.child? reference.edge with
        | some child =>
          rw [enter_of_some hchild] at hscope
          rw [hscope]
          exact hsame child hchild
        | none =>
          rw [enter_of_none hchild] at hscope
          rw [hscope]
          exact (Scope.same_iff _ _).mpr rfl
      · obtain ⟨there, hthere, hsame⟩ := h.refers hbelow
        exact ⟨there, at_withChild_self.mpr hthere, hsame⟩
  field path name := by
    cases path with
    | nil =>
      have hnone : ¬ Occurs (some selector) [] (some (.field name)) :=
        Selector.not_occurs_reference_nil href trivial
      simp [ReadsField, at_nil, hnone]
    | cons edge path =>
      rw [Selector.occurs_reference_cons href]
      exact at_withChild_iff (by simp) (fun path => h.field path name) edge path
  whole path := by
    cases path with
    | nil =>
      have habsent : ¬ Occurs (some selector) [] none :=
        Selector.not_occurs_reference_nil href trivial
      have hwildcard : ¬ Occurs (some selector) [] (some .wildcard) :=
        Selector.not_occurs_reference_nil href trivial
      simp [ReadsWhole, at_nil, habsent, hwildcard]
    | cons edge path =>
      rw [Selector.occurs_reference_cons href, Selector.occurs_reference_cons href, ← and_or_left]
      exact at_withChild_iff (by simp) h.whole edge path

/-- The nodes at the end of single references are open to everything. -/
def OpenSingles (p : Plan) : Prop :=
  ∀ path target own, p.HasScope (path ++ [.one target]) own → own = .unrestricted

theorem openSingles_leaf (id : Nat) (collection : String) (scope : Scope) :
    (leaf id collection scope).OpenSingles := by
  intro path target own h
  have hnil := (at_leaf.mp h).1
  simp at hnil

theorem OpenSingles.enter {p : Plan} {edge : Edge} {scope : Scope} {n : Nat}
    (h : p.OpenSingles) : (p.enter edge scope n).1.OpenSingles := by
  intro path target own hown
  rcases at_enter.mp hown with hthere | ⟨-, hnil, -⟩
  · exact h (edge :: path) target own hthere
  · simp at hnil

theorem Adds.openSingles {select : Option Selector} {p p' : Plan} (h : Adds select p p')
    (hp : p.OpenSingles) : p'.OpenSingles := by
  intro path target own hown
  rcases h.scope hown with hthere | hrefers
  · exact hp path target own hthere
  · exact hrefers.single

mutual

theorem load_adds : ∀ (selector : Selector) {p p' : Plan} {n n' : Nat},
    load selector p n = .ok (p', n') → p.OpenSingles → Adds (some selector) p p'
  | .wildcard, p, p', n, n', h, _ => by
    cases h
    exact adds_readAll (.inr rfl) p
  | .field name, p, p', n, n', h, _ => by
    cases h
    exact adds_readField name p
  | .list items, p, p', n, n', h, hp => loadItems_adds items h hp
  | .one target sub, p, p', n, n', h, hp => by
    obtain ⟨child', hsub, rfl⟩ := of_load_one h
    refine Adds.of_child ⟨.one target, sub, .unrestricted⟩ rfl
      (fun child hchild => ?_) (loadSub_adds sub hsub hp.enter)
    rw [hp [] target _ ((at_cons_of_some hchild).mpr (at_nil.mpr rfl))]
    rfl
  | .many target sub scope, p, p', n, n', h, hp => by
    obtain ⟨hsame, child', hsub, rfl⟩ := of_load_many h
    exact Adds.of_child ⟨.many target, sub, scope⟩ rfl hsame
      (loadSub_adds sub hsub hp.enter)

theorem loadSub_adds : ∀ (sub : Option Selector) {p p' : Plan} {n n' : Nat},
    loadSub sub p n = .ok (p', n') → p.OpenSingles → Adds sub p p'
  | none, p, p', n, n', h, _ => by
    cases h
    exact adds_readAll (.inl rfl) p
  | some selector, p, p', n, n', h, hp => load_adds selector h hp

theorem loadItems_adds : ∀ (items : List Selector) {p p' : Plan} {n n' : Nat},
    loadItems items p n = .ok (p', n') → p.OpenSingles → Adds (some (.list items)) p p'
  | [], p, p', n, n', h, _ => by
    cases h
    exact adds_nil p
  | item :: items, p, p', n, n', h, hp => by
    obtain ⟨q, k, hitem, hitems⟩ := of_loadItems_cons h
    have hadds := load_adds item hitem hp
    exact hadds.cons (loadItems_adds items hitems (hadds.openSingles hp))

end

/-! ## What is refused -/

/-- A many reference of the selector is refused with the error: on its path stands a node, or
another reference, with a scope that is not the same. -/
def Refuses (select : Option Selector) (p : Plan) (error : QueryError) : Prop :=
  ∃ path target sub scope own, Occurs select path (some (.many target sub scope)) ∧
    error = conflict target sub scope ∧ own.same scope = false ∧
    (p.HasScope (path ++ [.many target]) own ∨ Refers select (path ++ [.many target]) own)

theorem Refuses.of_item {item : Selector} {items : List Selector} {p : Plan} {error : QueryError}
    (h : Refuses (some item) p error) (hitem : item ∈ items) :
    Refuses (some (.list items)) p error := by
  obtain ⟨path, target, sub, scope, own, hoccurs, herror, hdiffer, hown⟩ := h
  exact ⟨path, target, sub, scope, own, .item hitem hoccurs, herror, hdiffer,
    hown.imp_right fun hrefers => Selector.refers_list.mpr ⟨item, hitem, hrefers⟩⟩

/-- What is refused after an item has been loaded. -/
theorem Refuses.of_rest {item : Selector} {items : List Selector} {p q : Plan} {error : QueryError}
    (hitem : Adds (some item) p q) (h : Refuses (some (.list items)) q error) :
    Refuses (some (.list (item :: items))) p error := by
  obtain ⟨path, target, sub, scope, own, hoccurs, herror, hdiffer, hown⟩ := h
  refine ⟨path, target, sub, scope, own, ?_, herror, hdiffer, ?_⟩
  · exact (Selector.occurs_list_cons (by simp)).mpr (.inr hoccurs)
  · rw [Selector.refers_list_cons]
    rcases hown with hthere | hlater
    · exact (hitem.scope hthere).imp_right .inl
    · exact .inr (.inr hlater)

theorem Refuses.of_child {selector : Selector} (reference : Reference)
    (href : selector.reference? = some reference) {p : Plan} {n : Nat} {error : QueryError}
    (h : Refuses reference.sub (p.enter reference.edge reference.scope n).1 error) :
    Refuses (some selector) p error := by
  obtain ⟨path, target, sub, scope, own, hoccurs, herror, hdiffer, hown⟩ := h
  refine ⟨reference.edge :: path, target, sub, scope, own, .beyond href hoccurs, herror, hdiffer,
    ?_⟩
  rcases hown with hthere | hrefers
  · rcases at_enter.mp hthere with hthere | ⟨-, hnil, -⟩
    · exact .inl hthere
    · simp at hnil
  · exact .inr ((Selector.refers_reference href).mpr ⟨rfl, .inr hrefers⟩)

theorem error_of_map {α β ε : Type} {f : α → β} {result : Except ε α} {error : ε}
    (h : result.map f = .error error) : result = .error error := by
  cases result with
  | error =>
    cases h
    rfl
  | ok => cases h

mutual

/-- What is refused is on the path of a reference, or of a node, with another scope. -/
theorem load_error : ∀ (selector : Selector) {p : Plan} {n : Nat} {error : QueryError},
    load selector p n = .error error → p.OpenSingles → Refuses (some selector) p error
  | .wildcard, _, _, _, h, _ => by cases h
  | .field _, _, _, _, h, _ => by cases h
  | .list items, _, _, _, h, hp => loadItems_error items h hp
  | .one target sub, p, n, error, h, hp => by
    refine .of_child ⟨.one target, sub, .unrestricted⟩ (n := n) rfl
      (loadSub_error sub (n := (p.enter (.one target) .unrestricted n).2) ?_ hp.enter)
    rw [load] at h
    cases hfind : p.child? (.one target) with
    | some child =>
      simp only [show p.ones.lookup target = some child from hfind] at h
      rw [enter_of_some hfind]
      exact error_of_map h
    | none =>
      simp only [show p.ones.lookup target = none from hfind] at h
      rw [enter_of_none hfind]
      exact error_of_map h
  | .many target sub scope, p, n, error, h, hp => by
    have hbelow : loadSub sub (p.enter (.many target) scope n).1
        (p.enter (.many target) scope n).2 = .error error →
          Refuses (some (.many target sub scope)) p error := fun hsub =>
      .of_child ⟨.many target, sub, scope⟩ rfl (loadSub_error sub hsub hp.enter)
    rw [load] at h
    cases hfind : p.child? (.many target) with
    | some child =>
      simp only [show p.manys.lookup target = some child from hfind] at h
      split at h
      · refine hbelow ?_
        rw [enter_of_some hfind]
        exact error_of_map h
      · next hdiffer =>
        cases h
        refine ⟨[], target, sub, scope, child.info.scope, .here _, rfl, ?_, .inl ?_⟩
        · exact Bool.not_eq_true _ ▸ hdiffer
        · exact (at_cons_of_some hfind).mpr (at_nil.mpr rfl)
    | none =>
      simp only [show p.manys.lookup target = none from hfind] at h
      refine hbelow ?_
      rw [enter_of_none hfind]
      exact error_of_map h

theorem loadSub_error : ∀ (sub : Option Selector) {p : Plan} {n : Nat} {error : QueryError},
    loadSub sub p n = .error error → p.OpenSingles → Refuses sub p error
  | none, _, _, _, h, _ => by cases h
  | some selector, _, _, _, h, hp => load_error selector h hp

theorem loadItems_error : ∀ (items : List Selector) {p : Plan} {n : Nat} {error : QueryError},
    loadItems items p n = .error error → p.OpenSingles → Refuses (some (.list items)) p error
  | [], _, _, _, h, _ => by cases h
  | item :: items, p, n, error, h, hp => by
    rw [loadItems] at h
    cases hitem : load item p n with
    | error =>
      simp only [hitem] at h
      cases h
      exact (load_error item hitem hp).of_item (List.mem_cons_self ..)
    | ok loaded =>
      obtain ⟨q, k⟩ := loaded
      simp only [hitem] at h
      have hadds := load_adds item hitem hp
      exact .of_rest hadds (loadItems_error items h (hadds.openSingles hp))

end

/-! ## The trie -/

/-- A plan is the trie of a selector: what the selector has on a path, the plan has there. -/
structure IsTrie (select : Option Selector) (scope : Scope) (plan : Plan) : Prop where
  /-- There is a node for the root and for the path of each reference. -/
  nodes : ∀ path, (plan.node? path).isSome ↔ path = [] ∨ ∃ own, Refers select path own
  root : plan.info.scope = scope
  fields : ∀ {path node}, plan.node? path = some node →
    ∀ name, name ∈ node.info.fields ↔ Occurs select path (some (.field name))
  full : ∀ {path node}, plan.node? path = some node →
    (node.info.full = true ↔ Occurs select path none ∨ Occurs select path (some .wildcard))
  /-- The scope is one of those on the path. -/
  scope : ∀ {path node}, plan.node? path = some node → path ≠ [] →
    Refers select path node.info.scope
  /-- The scope is the same as all on the path. -/
  same : ∀ {path node own}, plan.node? path = some node → Refers select path own →
    node.info.scope.same own = true
  single : ∀ {path target node}, plan.node? (path ++ [.one target]) = some node →
    node.info.scope = .unrestricted

/-- What is loaded into a leaf is the trie of what is loaded. -/
theorem Adds.isTrie {select : Option Selector} {plan : Plan} {id : Nat} {collection : String}
    {scope : Scope} (h : Adds select (leaf id collection scope) plan)
    (hopen : plan.OpenSingles) : IsTrie select scope plan where
  nodes path := by
    constructor
    · intro hsome
      obtain ⟨node, hnode⟩ := Option.isSome_iff_exists.mp hsome
      cases path with
      | nil => exact .inl rfl
      | cons edge path =>
        rcases h.scope ⟨node, hnode, rfl⟩ with hthere | hrefers
        · exact absurd hthere not_at_leaf_cons
        · exact .inr ⟨_, hrefers⟩
    · rintro (rfl | ⟨own, hrefers⟩)
      · rfl
      · obtain ⟨_, ⟨node, hnode, -⟩, -⟩ := h.refers hrefers
        rw [hnode]
        rfl
  root := h.kept.root.scope
  fields {path node} hnode name := by
    rw [← at_of_node? (P := fun info => name ∈ info.fields) hnode]
    have hleaf : ¬ (leaf id collection scope).ReadsField path name := by simp [ReadsField, at_leaf]
    exact (h.field path name).trans (or_iff_right hleaf)
  full {path node} hnode := by
    rw [← at_of_node? (P := fun info => info.full = true) hnode]
    have hleaf : ¬ (leaf id collection scope).ReadsWhole path := by simp [ReadsWhole, at_leaf]
    exact (h.whole path).trans (or_iff_right hleaf)
  scope {path node} hnode hne := by
    cases path with
    | nil => exact absurd rfl hne
    | cons edge path => exact (h.scope ⟨node, hnode, rfl⟩).resolve_left not_at_leaf_cons
  same {path node own} hnode hrefers := by
    obtain ⟨there, hthere, hsame⟩ := h.refers hrefers
    obtain rfl : node.info.scope = there := (at_of_node? hnode).mp hthere
    exact hsame
  single {path target node} hnode := hopen path target _ ⟨node, hnode, rfl⟩

/-- Nothing in a trie conflicts. -/
theorem IsTrie.not_conflicting {select : Option Selector} {scope : Scope} {plan : Plan}
    (h : IsTrie select scope plan) : ¬ Conflicting select := by
  rintro ⟨path, a, b, -, ha, hb, hdiffer⟩
  obtain ⟨node, hnode⟩ := Option.isSome_iff_exists.mp ((h.nodes path).mpr (.inr ⟨a, ha⟩))
  have hsame : a.same b = true :=
    Scope.same_trans (Scope.same_symm (h.same hnode ha)) (h.same hnode hb)
  rw [hsame] at hdiffer
  cases hdiffer

/-- In a leaf, what is refused conflicts with another reference. -/
theorem Refuses.conflicting {select : Option Selector} {id : Nat} {collection : String}
    {scope : Scope} {error : QueryError}
    (h : Refuses select (leaf id collection scope) error) : Conflicting select := by
  obtain ⟨path, target, sub, scope, own, hoccurs, -, hdiffer, hthere | hrefers⟩ := h
  · have hnil := (at_leaf.mp hthere).1
    simp at hnil
  · exact ⟨path ++ [.many target], own, scope, ⟨target, by simp⟩, hrefers, .many hoccurs, hdiffer⟩

/-- **The plan of a selector is its trie.** It fails to be built if and only if two many references
on one path have different scopes; the error then tells one of the many references. Otherwise it has
a node for the root and for the path of each reference, which reads what stands there and has the
scope of the references. -/
theorem build_trie (collection : String) (select : Option Selector) (scope : Scope) :
    ((∃ error, build collection select scope = .error error) ↔ Conflicting select) ∧
      (∀ error, build collection select scope = .error error →
        ∃ path target sub own, Occurs select path (some (.many target sub own)) ∧
          error = .badSelector (Selector.many target sub own).text (.conflictingScopes target)) ∧
      ∀ plan, build collection select scope = .ok plan → IsTrie select scope plan := by
  have hopen := openSingles_leaf 0 collection scope
  have hok : ∀ plan, build collection select scope = .ok plan → IsTrie select scope plan := by
    intro plan hplan
    obtain ⟨next, hload⟩ := of_build hplan
    have hadds := loadSub_adds select hload hopen
    exact hadds.isTrie (hadds.openSingles hopen)
  have herror : ∀ error, build collection select scope = .error error →
      Refuses select (leaf 0 collection scope) error := fun error h =>
    loadSub_error select (error_of_map h) hopen
  refine ⟨⟨?_, fun hconflict => ?_⟩, fun error h => ?_, hok⟩
  · rintro ⟨error, h⟩
    exact (herror error h).conflicting
  · cases hbuild : build collection select scope with
    | error error => exact ⟨error, rfl⟩
    | ok plan => exact absurd hconflict (hok plan hbuild).not_conflicting
  · obtain ⟨path, target, sub, own, _, hoccurs, hconflict, -⟩ := herror error h
    exact ⟨path, target, sub, own, hoccurs, hconflict⟩

/-- Two branches lead along the machine of a document to its disks, once to all and once to one. -/
example :
    let disks (limit : Option Nat) : Selector :=
      .many "disk" (some (.field "id")) { Scope.unrestricted with limit := limit }
    (build "user" (some (.list [.one "vm" (some (disks none)),
      .list [.field "name", .one "vm" (some (.list [disks (some 1)]))]])) .unrestricted).isOk
        = false := rfl

end Plan

end LinkedDocs
