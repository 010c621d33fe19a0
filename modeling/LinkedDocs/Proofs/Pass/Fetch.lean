import LinkedDocs.Proofs.Pass.Memo
import LinkedDocs.Proofs.Pass.Schedule
import LinkedDocs.Proofs.Plan.Branches
import LinkedDocs.Proofs.Store.Steady
import Mathlib.Logic.Relation

/-!
# What a pass needs to fetch

What has to be fetched is fixed by the plan and by the answers of the store, without a memo. A
`Fetch` is the look-up of one document, or the search for a page, at a node of the plan. It gives
documents or is refused (`Fetch.found`), and each of these leads to further fetches, for what it
refers to (`Plan.references`). A fetch is `Needed` if the first one of a pass leads to it, over
however many others.

Fetches are filed by the number of their node and by an id, that of the document or that of the one
that refers to the page. Where the store tells documents apart by their ids, this tells needed
fetches apart as well:

> `Needed.unique`: needed fetches that are filed alike are the same.
-/

namespace LinkedDocs

/-- One fetch of a pass. -/
inductive Fetch where
  /-- The look-up of one document. -/
  | one (node : Plan) (id : String)
  /-- The search for the page that a document refers to by a link; the root page has no such
  document. -/
  | many (node : Plan) (parent : Option String) (link : Filter)

/-- Where a fetch is filed at its node. -/
inductive Slot where
  | one (id : String)
  | many (parent : Option String)
  deriving DecidableEq

namespace Fetch

/-- The node at which the fetch is made, with what hangs below it. -/
def node : Fetch → Plan
  | .one node _ => node
  | .many node _ _ => node

/-- The number of the node and the slot under which the fetch is filed. -/
def key : Fetch → Nat × Slot
  | .one node id => (node.info.id, .one id)
  | .many node parent _ => (node.info.id, .many parent)

/-- Whether one document is looked up. -/
def isOne : Fetch → Bool
  | .one .. => true
  | .many .. => false

/-- The call that the store is asked, unless the permission refuses the fetch. -/
def call (p : Permission) : Fetch → Except QueryError Call
  | .one node id =>
    if p.check node.info.collection id then .ok (.get node.info.collection id node.projection)
    else .error (.forbidden node.info.collection id)
  | .many node _ link =>
    (p.narrow node.info.collection (link ++ node.info.scope.filter)).map
      (.find node.info.collection · node.projection)

/-- The documents that the fetch gives: none or one, or a page, sorted and windowed. -/
def found (reply : (call : Call) → call.Answer) (p : Permission) :
    Fetch → Except QueryError (List Entity)
  | .one node id =>
    if p.check node.info.collection id then
      match reply (.get node.info.collection id node.projection) with
      | .ok entity => .ok entity.toList
      | .error error => .error (.ofStore error)
    else .error (.forbidden node.info.collection id)
  | .many node _ link =>
    match p.narrow node.info.collection (link ++ node.info.scope.filter) with
    | .error error => .error error
    | .ok filter =>
      match reply (.find node.info.collection filter node.projection) with
      | .ok found => .ok (node.info.scope.window (node.info.scope.order.sort found))
      | .error error => .error (.ofStore error)

/-- Resolves what is fetched and all that it refers to. -/
def resolve (p : Permission) : Fetch → Pass (List Entity)
  | .one node id => Option.toList <$> Pass.one p node id
  | .many node parent link => Pass.many p node parent link

/-- The same in the order that a schedule has for it. -/
def resolveBy (schedule : Schedule) (p : Permission) : Fetch → Scheduled (List Entity)
  | .one node id => Option.toList <$> Scheduled.one schedule p node id
  | .many node parent link => Scheduled.many schedule p node parent link

theorem fst_key (f : Fetch) : f.key.1 = f.node.info.id := by
  cases f <;> rfl

end Fetch

namespace Plan

/-- The fetch that a document leads to over a branch, if it refers to anything there. -/
def Branch.fetch? (b : Branch) (e : Entity) : Option Fetch :=
  match b.edge with
  | .one target =>
    match e.link target with
    | .single id => some (.one b.child id)
    | _ => none
  | .many target =>
    (Pass.linkFilter? b.parent.info.collection e target).map (.many b.child (some e.id))

/-- The fetches that a document at the root leads to. -/
def references (plan : Plan) (e : Entity) : List Fetch := plan.children.filterMap (·.fetch? e)

theorem mem_references {plan : Plan} {e : Entity} {f : Fetch} :
    f ∈ plan.references e ↔ ∃ b ∈ plan.children, b.fetch? e = some f := List.mem_filterMap

/-- Where nothing hangs below, no document leads to anything. -/
theorem references_of_leaf {plan : Plan} (h : (plan.ones.isEmpty && plan.manys.isEmpty) = true)
    (e : Entity) : plan.references e = [] := by
  rw [Bool.and_eq_true, List.isEmpty_iff, List.isEmpty_iff] at h
  rw [references, children, h.1, h.2]
  rfl

theorem Branch.node_of_fetch? {b : Branch} {e : Entity} {f : Fetch} (h : b.fetch? e = some f) :
    f.node = b.child := by
  unfold fetch? at h
  split at h
  · split at h
    · cases h
      rfl
    · cases h
  · obtain ⟨link, -, rfl⟩ := Option.map_eq_some_iff.mp h
    rfl

/-- Over one branch, documents that are told apart by their ids lead to fetches that are told apart
by their slots. -/
theorem Branch.fetch_eq {b : Branch} {e e' : Entity} {f f' : Fetch} (h : b.fetch? e = some f)
    (h' : b.fetch? e' = some f') (hkey : f.key = f'.key) (hsame : e.id = e'.id → e = e') :
    f = f' := by
  unfold fetch? at h h'
  cases hedge : b.edge with
  | one target =>
    rw [hedge] at h h'
    dsimp only at h h'
    split at h
    · split at h'
      · cases h
        cases h'
        cases hkey
        rfl
      · cases h'
    · cases h
  | many target =>
    rw [hedge] at h h'
    obtain ⟨link, hlink, rfl⟩ := Option.map_eq_some_iff.mp h
    obtain ⟨link', hlink', rfl⟩ := Option.map_eq_some_iff.mp h'
    have hslot := congrArg Prod.snd hkey
    obtain rfl := hsame (Option.some.inj (Slot.many.inj hslot))
    cases hlink.symm.trans hlink'
    rfl

end Plan

/-! ## The steps of a pass as fetches -/

section Steps

variable (schedule : Schedule) (p : Permission)

theorem Scheduled.followOnes_eq (parent : Plan) (ones : List (String × Plan)) (e : Entity) :
    followOnes schedule p ones e =
      ((ones.map fun pair => (⟨parent, .one pair.1, pair.2⟩ : Plan.Branch)).filterMap
        (·.fetch? e)).map fun f => discard (f.resolveBy schedule p) := by
  induction ones with
  | nil => rfl
  | cons pair rest ih =>
    obtain ⟨target, child⟩ := pair
    rw [followOnes, List.map_cons, List.filterMap_cons, Plan.Branch.fetch?]
    dsimp only
    cases e.link target with
    | single id =>
      have hsame : discard (resolveOne p child (expand schedule p child) id)
          = discard ((Fetch.one child id).resolveBy schedule p) := by
        rw [Fetch.resolveBy, discard_eq, discard_eq, bind_map_left]
        rfl
      rw [ih, List.map_cons, ← hsame]
    | absent | many | invalid => exact ih

theorem Scheduled.followManys_eq (parent : Plan) (manys : List (String × Plan)) (e : Entity) :
    followManys schedule p parent.info.collection manys e =
      ((manys.map fun pair => (⟨parent, .many pair.1, pair.2⟩ : Plan.Branch)).filterMap
        (·.fetch? e)).map fun f => discard (f.resolveBy schedule p) := by
  induction manys with
  | nil => rfl
  | cons pair rest ih =>
    obtain ⟨target, child⟩ := pair
    rw [followManys, List.map_cons, List.filterMap_cons, Plan.Branch.fetch?]
    dsimp only
    cases Pass.linkFilter? parent.info.collection e target with
    | some link =>
      dsimp only [Option.map]
      rw [ih, List.map_cons]
      rfl
    | none => exact ih

/-- The references of a document are followed fetch by fetch. -/
theorem Scheduled.expand_eq (plan : Plan) (e : Entity) :
    expand schedule p plan e = (do
      if plan.ones.isEmpty && plan.manys.isEmpty then pure ()
      else
        let memo : Memo ← StateT.lift get
        if memo.isExpanded plan.info.id e.id then pure ()
        else
          visit schedule ((plan.references e).map fun f => discard (f.resolveBy schedule p))
          StateT.lift (modify fun m => m.addExpanded plan.info.id e.id)) := by
  cases plan with
  | node info ones manys =>
    rw [expand, Plan.references, Plan.children, List.filterMap_append, List.map_append,
      ← followOnes_eq, ← followManys_eq]
    rfl

end Steps

section Needed

variable (reply : (call : Call) → call.Answer) (p : Permission)

/-- The first fetch gives a document that leads to the second one. -/
def LeadsTo (f g : Fetch) : Prop :=
  ∃ found, f.found reply p = .ok found ∧ ∃ e ∈ found, g ∈ f.node.references e

/-- The fetch has to be made in a pass that begins with `start`. -/
abbrev Needed (start f : Fetch) : Prop := Relation.ReflTransGen (LeadsTo reply p) start f

/-- The document is one that a needed fetch gives at this node. -/
def Met (start : Fetch) (plan : Plan) (e : Entity) : Prop :=
  ∃ f found, Needed reply p start f ∧ f.node = plan ∧ f.found reply p = .ok found ∧ e ∈ found

end Needed

variable {reply : (call : Call) → call.Answer} {p : Permission} {start f g : Fetch}
  {plan plan' : Plan} {e e' : Entity}

/-- A look-up gives one document at most. -/
theorem Fetch.toList_head? {id : String} {found : List Entity}
    (h : (Fetch.one plan id).found reply p = .ok found) : found.head?.toList = found := by
  rw [Fetch.found] at h
  split at h
  · cases hreply : reply (.get plan.info.collection id plan.projection) with
    | error error =>
      rw [hreply] at h
      cases h
    | ok entity =>
      rw [hreply] at h
      cases h
      cases entity <;> rfl
  · cases h

/-- What a fetch gives is what the store shows. -/
theorem Fetch.shows_of_found {found : List Entity} (h : f.found reply p = .ok found)
    (he : e ∈ found) : Shows reply f.node.info.collection f.node.projection e := by
  cases f with
  | one node id =>
    rw [Fetch.found] at h
    split at h
    · cases hreply : reply (.get node.info.collection id node.projection) with
      | error error =>
        rw [hreply] at h
        cases h
      | ok entity =>
        rw [hreply] at h
        cases h
        obtain rfl := Option.mem_toList.mp he
        exact .inl ⟨id, hreply⟩
    · cases h
  | many node parent link =>
    rw [Fetch.found] at h
    split at h
    · cases h
    · next filter hnarrow =>
      cases hreply : reply (.find node.info.collection filter node.projection) with
      | error error =>
        rw [hreply] at h
        cases h
      | ok all =>
        rw [hreply] at h
        cases h
        exact .inr ⟨filter, all, hreply, Scope.mem_of_mem_window_sort he⟩

theorem Met.shows (h : Met reply p start plan e) :
    Shows reply plan.info.collection plan.projection e := by
  obtain ⟨f, found, -, rfl, hfound, he⟩ := h
  exact Fetch.shows_of_found hfound he

/-- What a document that has been met refers to is needed. -/
theorem Met.needed (h : Met reply p start plan e) (hg : g ∈ plan.references e) :
    Needed reply p start g := by
  obtain ⟨f, found, hneeded, rfl, hfound, he⟩ := h
  exact hneeded.tail ⟨found, hfound, e, he, hg⟩

/-- Where a needed fetch stands in the plan: what hangs below it hangs below the root, and it is the
first one, or a document that has been met leads to it over a branch. -/
theorem Needed.position (hnodup : start.node.ids.Nodup) (h : Needed reply p start f) :
    f.node.branches ⊆ start.node.branches ∧ f.node.ids.Nodup ∧
      (f = start ∨ ∃ b ∈ start.node.branches, ∃ e, Met reply p start b.parent e ∧
        b.fetch? e = some f) := by
  induction h with
  | refl => exact ⟨List.Subset.refl _, hnodup, .inl rfl⟩
  | @tail f g hneeded hleads ih =>
    obtain ⟨hbranches, hids, -⟩ := ih
    obtain ⟨found, hfound, e, he, hg⟩ := hleads
    obtain ⟨b, hb, hfetch⟩ := Plan.mem_references.mp hg
    obtain ⟨hparent, hmem, hwithin, -⟩ := Plan.child_within hb
    have hnode := Plan.Branch.node_of_fetch? hfetch
    rw [hnode]
    refine ⟨List.Subset.trans hwithin hbranches, Plan.nodup_child hids hb,
      .inr ⟨b, hbranches hmem, e, ?_, hfetch⟩⟩
    exact ⟨f, found, hneeded, hparent.symm, hfound, he⟩

/-- What is needed: the first fetch, and what the documents that have been met refer to. -/
theorem needed_iff (hnodup : start.node.ids.Nodup) :
    Needed reply p start f ↔ f = start ∨ ∃ b ∈ start.node.branches, ∃ e,
      Met reply p start b.parent e ∧ b.fetch? e = some f := by
  constructor
  · exact fun h => (h.position hnodup).2.2
  · rintro (rfl | ⟨b, hb, e, hmet, hfetch⟩)
    · exact .refl
    · exact hmet.needed (Plan.mem_references.mpr ⟨b, Plan.mem_children_parent hb, hfetch⟩)

/-- A needed fetch is filed at a node that is not below itself. -/
theorem Needed.key_not_below (hnodup : start.node.ids.Nodup) (h : Needed reply p start f) :
    f.key.1 ∉ f.node.idsBelow := by
  obtain ⟨-, hids, -⟩ := h.position hnodup
  rw [Fetch.fst_key]
  exact Plan.id_not_below hids

/-- The number of a node tells needed fetches of different nodes apart. -/
theorem Needed.node_eq (hnodup : start.node.ids.Nodup) (h : Needed reply p start f)
    (h' : Needed reply p start g) (hid : f.node.info.id = g.node.info.id) : f.node = g.node := by
  obtain ⟨-, -, hf⟩ := h.position hnodup
  obtain ⟨-, -, hg⟩ := h'.position hnodup
  rcases hf with rfl | ⟨b, hb, e, -, hfetch⟩
  · rcases hg with rfl | ⟨b', hb', e', -, hfetch'⟩
    · rfl
    · rw [Plan.Branch.node_of_fetch? hfetch'] at hid
      exact absurd hid.symm (Plan.branch_ne_root hnodup hb')
  · have hnode := Plan.Branch.node_of_fetch? hfetch
    rw [hnode] at hid
    rcases hg with rfl | ⟨b', hb', e', -, hfetch'⟩
    · exact absurd hid (Plan.branch_ne_root hnodup hb)
    · have hnode' := Plan.Branch.node_of_fetch? hfetch'
      rw [hnode'] at hid
      rw [hnode, hnode', Plan.branch_eq hnodup hb hb' hid]

/-- A document that has been met is known by the number of the node and its id. -/
theorem Met.unique (keyed : Keyed reply) (hnodup : start.node.ids.Nodup)
    (h : Met reply p start plan e) (h' : Met reply p start plan' e')
    (hnode : plan.info.id = plan'.info.id) (hid : e.id = e'.id) : plan = plan' ∧ e = e' := by
  have hplan : plan = plan' := by
    obtain ⟨f, -, hneeded, rfl, -⟩ := h
    obtain ⟨g, -, hneeded', rfl, -⟩ := h'
    exact hneeded.node_eq hnodup hneeded' hnode
  subst hplan
  exact ⟨rfl, keyed h.shows h'.shows hid⟩

/-- **Needed fetches that are filed alike are the same.** -/
theorem Needed.unique (keyed : Keyed reply) (hnodup : start.node.ids.Nodup)
    (h : Needed reply p start f) (h' : Needed reply p start g) (hkey : f.key = g.key) : f = g := by
  have hid : f.node.info.id = g.node.info.id := by rw [← Fetch.fst_key, ← Fetch.fst_key, hkey]
  obtain ⟨-, -, hf⟩ := h.position hnodup
  obtain ⟨-, -, hg⟩ := h'.position hnodup
  rcases hf with rfl | ⟨b, hb, e, hmet, hfetch⟩
  · rcases hg with rfl | ⟨b', hb', e', -, hfetch'⟩
    · rfl
    · rw [Plan.Branch.node_of_fetch? hfetch'] at hid
      exact absurd hid.symm (Plan.branch_ne_root hnodup hb')
  · rw [Plan.Branch.node_of_fetch? hfetch] at hid
    rcases hg with rfl | ⟨b', hb', e', hmet', hfetch'⟩
    · exact absurd hid (Plan.branch_ne_root hnodup hb)
    · rw [Plan.Branch.node_of_fetch? hfetch'] at hid
      -- one branch leads to the node, and documents at its start are told apart by their ids
      obtain rfl := Plan.branch_eq hnodup hb hb' hid
      exact Plan.Branch.fetch_eq hfetch hfetch' hkey (keyed hmet.shows hmet'.shows)

end LinkedDocs
