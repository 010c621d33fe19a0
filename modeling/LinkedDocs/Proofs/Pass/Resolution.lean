import LinkedDocs.Proofs.Pass.Step
import LinkedDocs.Proofs.Permission.Narrowing
import LinkedDocs.Proofs.Plan.Nodes
import LinkedDocs.Proofs.Store.Reachable

/-!
# What a pass resolves

What a reference leads to is fixed by the store, the permission and the plan: one entity
(`Memory.entity?`) or the entities of a page (`Memory.page`). Here this is said without a memo.
`Plan.Resolves` says that nothing that hangs below a document at a node is refused, and
`Plan.Covers` that a memo holds all of it. What a store call gives is what is fixed, restricted to
the fields of the node (`reply_get_entity`, `reply_find_page`).
-/

namespace LinkedDocs

/-- Sorting looks only at the fields that are sorted by. -/
theorem Order.compareAll_restrict {projection : Projection} {order : Order}
    (h : ∀ key ∈ order, projection.includes key.field = true) (a b : Entity) :
    compareAll order (a.restrict projection) (b.restrict projection) = compareAll order a b := by
  induction order with
  | nil => rfl
  | cons key keys ih =>
    have hkey := h key (List.mem_cons_self ..)
    rw [compareAll, compareAll, compareBy, compareBy, Entity.get?_restrict_of_includes hkey,
      Entity.get?_restrict_of_includes hkey, ih fun k hk => h k (List.mem_cons_of_mem _ hk)]

/-- Restricting first and sorting then comes to the same as the other way round. -/
theorem Order.sort_map_restrict {projection : Projection} {order : Order}
    (h : ∀ key ∈ order, projection.includes key.field = true) (entities : List Entity) :
    order.sort (entities.map (·.restrict projection))
      = (order.sort entities).map (·.restrict projection) := by
  refine (List.map_mergeSort fun a _ b _ => ?_).symm
  rw [compareAll_restrict h]

theorem Scope.window_map {α β : Type} (scope : Scope) (f : α → β) (items : List α) :
    scope.window (items.map f) = (scope.window items).map f := by
  unfold Scope.window
  cases scope.limit <;> simp

theorem Scope.mem_of_mem_window {α : Type} {scope : Scope} {items : List α} {a : α}
    (h : a ∈ scope.window items) : a ∈ items := by
  unfold Scope.window at h
  cases hlimit : scope.limit with
  | none =>
    rw [hlimit] at h
    exact List.mem_of_mem_drop h
  | some limit =>
    rw [hlimit] at h
    exact List.mem_of_mem_drop (List.mem_of_mem_take h)

/-- Sorting and windowing bring nothing in. -/
theorem Scope.mem_of_mem_window_sort {scope : Scope} {entities : List Entity} {e : Entity}
    (h : e ∈ scope.window (scope.order.sort entities)) : e ∈ entities := by
  have hsorted := Scope.mem_of_mem_window h
  rwa [Order.sort, List.mem_mergeSort] at hsorted

namespace Memory

variable (m : Memory) (p : Permission)

/-- The entity with this id. -/
def entity? (collection id : String) : Option Entity :=
  (m.entities collection).find? (·.id == id)

/-- The entities that a link and a scope pick for the caller, sorted and windowed. -/
def page (collection : String) (link : Filter) (scope : Scope) : List Entity :=
  scope.window (scope.order.sort ((m.entities collection).filter fun e =>
    Filter.holds (link ++ scope.filter) e && p.check collection e.id))

variable {m p}

theorem mem_entities_of_entity? {collection id : String} {e : Entity}
    (h : m.entity? collection id = some e) : e ∈ m.entities collection :=
  List.mem_of_find?_eq_some h

theorem mem_entities_of_page {collection : String} {link : Filter} {scope : Scope} {e : Entity}
    (h : e ∈ m.page p collection link scope) : e ∈ m.entities collection :=
  (List.mem_filter.mp (Scope.mem_of_mem_window_sort h)).1

theorem check_of_mem_page {collection : String} {link : Filter} {scope : Scope} {e : Entity}
    (h : e ∈ m.page p collection link scope) : p.check collection e.id = true := by
  have hpicked := (List.mem_filter.mp (Scope.mem_of_mem_window_sort h)).2
  rw [Bool.and_eq_true] at hpicked
  exact hpicked.2

theorem reply_get_entity (h : m.Identified) (on : m.offline = false) (collection id : String)
    (projection : Projection) :
    m.reply (.get collection id projection)
      = .ok ((m.entity? collection id).map (·.restrict projection)) :=
  reply_get h on collection id projection

/-- A narrowed search gives what becomes the page, restricted. -/
theorem reply_find_page (h : m.Identified) (on : m.offline = false) {collection : String}
    {link filter : Filter} {scope : Scope} {projection : Projection}
    (hnarrow : p.narrow collection (link ++ scope.filter) = .ok filter)
    (horder : ∀ key ∈ scope.order, projection.includes key.field = true) :
    ∃ found, m.reply (.find collection filter projection) = .ok found ∧
      scope.window (scope.order.sort found)
        = (m.page p collection link scope).map (·.restrict projection) := by
  refine ⟨_, reply_find h on collection filter projection, ?_⟩
  rw [Order.sort_map_restrict horder, Scope.window_map, page]
  congr 4
  funext e
  exact Permission.holds_narrow hnarrow e

end Memory

namespace Plan

/-- What is asked for at a node. -/
theorem projection_includes {p : Plan} {name : String}
    (h : name ∈ p.info.fields ++ p.ones.map Prod.fst ++ p.manys.map Prod.fst
      ++ p.info.scope.order.map SortKey.field) : p.projection.includes name = true := by
  unfold projection
  split
  · rfl
  · rw [Projection.includes, Bool.or_eq_true, List.contains_iff_mem, mem_sortedNames]
    exact .inr h

/-- It is enough to follow the references of the node. -/
theorem projection_includes_target {p child : Plan} {edge : Edge} (h : p.child? edge = some child) :
    p.projection.includes edge.target = true := by
  refine projection_includes (List.mem_append_left _ ?_)
  cases edge with
  | one target =>
    exact List.mem_append_left _ (List.mem_append_right _
      (List.mem_map_of_mem (f := Prod.fst) (Dict.mem_of_lookup h)))
  | many target =>
    exact List.mem_append_right _ (List.mem_map_of_mem (f := Prod.fst) (Dict.mem_of_lookup h))

/-- It is enough to sort by. -/
theorem projection_includes_order (p : Plan) :
    ∀ key ∈ p.info.scope.order, p.projection.includes key.field = true := fun _ hkey =>
  projection_includes (List.mem_append_right _ (List.mem_map_of_mem hkey))

/-- It is enough to read the fields of the node. -/
theorem projection_includes_field {p : Plan} {name : String} (h : name ∈ p.info.fields) :
    p.projection.includes name = true :=
  projection_includes
    (List.mem_append_left _ (List.mem_append_left _ (List.mem_append_left _ h)))

theorem projection_eq_all {p : Plan} (h : p.info.full = true) : p.projection = .all := by
  rw [projection, if_pos h]

section Resolution

variable (m : Memory) (p : Permission)

/-- The document that is fetched for an id at a node. -/
def fetched (plan : Plan) (id : String) : Option Entity :=
  (m.entity? plan.info.collection id).map (·.restrict plan.projection)

/-- The page that is fetched for a link at a node. -/
def fetchedPage (plan : Plan) (link : Filter) : List Entity :=
  (m.page p plan.info.collection link plan.info.scope).map (·.restrict plan.projection)

mutual

/-- Nothing that hangs below a document at this node is refused. -/
def Resolves : Plan → Entity → Prop
  | .node info ones manys, e => OnesResolve ones e ∧ ManysResolve info.collection manys e

/-- Nothing that hangs below the single references of a document is refused. -/
def OnesResolve : List (String × Plan) → Entity → Prop
  | [], _ => True
  | (target, child) :: rest, e =>
    (∀ id, e.link target = .single id →
      p.check child.info.collection id = true ∧
        ∀ found, m.entity? child.info.collection id = some found → Resolves child found) ∧
    OnesResolve rest e

/-- Nothing that hangs below the many references of a document is refused. -/
def ManysResolve (collection : String) : List (String × Plan) → Entity → Prop
  | [], _ => True
  | (target, child) :: rest, e =>
    (∀ link, Pass.linkFilter? collection e target = some link →
      p.refuses child.info.collection (link ++ child.info.scope.filter) = false ∧
        ∀ member ∈ m.page p child.info.collection link child.info.scope, Resolves child member) ∧
    ManysResolve collection rest e

end

variable (memo : Memo)

mutual

/-- The memo holds all that hangs below a document at this node. -/
def Covers : Plan → Entity → Prop
  | .node info ones manys, e => CoversOnes ones e ∧ CoversManys info.collection manys e

/-- The memo holds all that hangs below the single references of a document. -/
def CoversOnes : List (String × Plan) → Entity → Prop
  | [], _ => True
  | (target, child) :: rest, e =>
    (∀ id, e.link target = .single id →
      memo.entity? child.info.id id = some (child.fetched m id) ∧
        ∀ found, m.entity? child.info.collection id = some found → Covers child found) ∧
    CoversOnes rest e

/-- The memo holds all that hangs below the many references of a document. -/
def CoversManys (collection : String) : List (String × Plan) → Entity → Prop
  | [], _ => True
  | (target, child) :: rest, e =>
    (∀ link, Pass.linkFilter? collection e target = some link →
      memo.page? child.info.id (some e.id) = some (child.fetchedPage m p link) ∧
        ∀ member ∈ m.page p child.info.collection link child.info.scope, Covers child member) ∧
    CoversManys collection rest e

end

variable {m p memo}

theorem onesResolve_iff {ones : List (String × Plan)} {e : Entity} :
    OnesResolve m p ones e ↔ ∀ pair ∈ ones, ∀ id, e.link pair.1 = .single id →
      p.check pair.2.info.collection id = true ∧
        ∀ found, m.entity? pair.2.info.collection id = some found → Resolves m p pair.2 found := by
  induction ones with
  | nil => simp [OnesResolve]
  | cons pair rest ih =>
    obtain ⟨target, child⟩ := pair
    simp only [OnesResolve, ih, List.forall_mem_cons]

theorem manysResolve_iff {collection : String} {manys : List (String × Plan)} {e : Entity} :
    ManysResolve m p collection manys e ↔ ∀ pair ∈ manys, ∀ link,
      Pass.linkFilter? collection e pair.1 = some link →
        p.refuses pair.2.info.collection (link ++ pair.2.info.scope.filter) = false ∧
          ∀ member ∈ m.page p pair.2.info.collection link pair.2.info.scope,
            Resolves m p pair.2 member := by
  induction manys with
  | nil => simp [ManysResolve]
  | cons pair rest ih =>
    obtain ⟨target, child⟩ := pair
    simp only [ManysResolve, ih, List.forall_mem_cons]

theorem coversOnes_iff {ones : List (String × Plan)} {e : Entity} :
    CoversOnes m p memo ones e ↔ ∀ pair ∈ ones, ∀ id, e.link pair.1 = .single id →
      memo.entity? pair.2.info.id id = some (pair.2.fetched m id) ∧
        ∀ found, m.entity? pair.2.info.collection id = some found →
          Covers m p memo pair.2 found := by
  induction ones with
  | nil => simp [CoversOnes]
  | cons pair rest ih =>
    obtain ⟨target, child⟩ := pair
    simp only [CoversOnes, ih, List.forall_mem_cons]

theorem coversManys_iff {collection : String} {manys : List (String × Plan)} {e : Entity} :
    CoversManys m p memo collection manys e ↔ ∀ pair ∈ manys, ∀ link,
      Pass.linkFilter? collection e pair.1 = some link →
        memo.page? pair.2.info.id (some e.id) = some (pair.2.fetchedPage m p link) ∧
          ∀ member ∈ m.page p pair.2.info.collection link pair.2.info.scope,
            Covers m p memo pair.2 member := by
  induction manys with
  | nil => simp [CoversManys]
  | cons pair rest ih =>
    obtain ⟨target, child⟩ := pair
    simp only [CoversManys, ih, List.forall_mem_cons]

/-! ## Along an edge -/

variable {plan child : Plan} {e : Entity} {target : String}

theorem Resolves.one {id : String} (h : Resolves m p plan e)
    (hchild : plan.child? (.one target) = some child) (hlink : e.link target = .single id) :
    p.check child.info.collection id = true ∧
      ∀ found, m.entity? child.info.collection id = some found → Resolves m p child found := by
  cases plan
  exact onesResolve_iff.mp h.1 _ (Dict.mem_of_lookup hchild) id hlink

theorem Resolves.many {link : Filter} (h : Resolves m p plan e)
    (hchild : plan.child? (.many target) = some child)
    (hlink : Pass.linkFilter? plan.info.collection e target = some link) :
    p.refuses child.info.collection (link ++ child.info.scope.filter) = false ∧
      ∀ member ∈ m.page p child.info.collection link child.info.scope,
        Resolves m p child member := by
  cases plan
  exact manysResolve_iff.mp h.2 _ (Dict.mem_of_lookup hchild) link hlink

theorem Covers.one {id : String} (h : Covers m p memo plan e)
    (hchild : plan.child? (.one target) = some child) (hlink : e.link target = .single id) :
    memo.entity? child.info.id id = some (child.fetched m id) ∧
      ∀ found, m.entity? child.info.collection id = some found → Covers m p memo child found := by
  cases plan
  exact coversOnes_iff.mp h.1 _ (Dict.mem_of_lookup hchild) id hlink

theorem Covers.many {link : Filter} (h : Covers m p memo plan e)
    (hchild : plan.child? (.many target) = some child)
    (hlink : Pass.linkFilter? plan.info.collection e target = some link) :
    memo.page? child.info.id (some e.id) = some (child.fetchedPage m p link) ∧
      ∀ member ∈ m.page p child.info.collection link child.info.scope,
        Covers m p memo child member := by
  cases plan
  exact coversManys_iff.mp h.2 _ (Dict.mem_of_lookup hchild) link hlink

end Resolution

end Plan

end LinkedDocs
