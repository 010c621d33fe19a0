import LinkedDocs.Proofs.Plan.Numbering
import LinkedDocs.Proofs.Reading.Rendering

/-!
# A cache for each node

What a pass remembers is filed by node. Seen from the nodes, a memo is a list of caches, one for
each node of the plan, and the cache of a node is at the place of its number (`Memo.caches`).

A step is confined to some nodes (`Pass.Confined`) if it looks into their caches alone and files in
them alone: what else a memo holds makes no difference to its result, its calls and its costs, and
is left as it was. A pass is confined to the nodes at which it starts and those below:

> `confined_expand`: following the references of a document is confined to the numbers of the plan.

For a plan that is built these are places in the list of caches, and no two nodes have the same
(`Plan.build_indexes_caches`).
-/

namespace LinkedDocs

/-- What is filed at a node. -/
@[ext] structure Cache where
  /-- Documents by id. -/
  entity? : String → Option (Option Entity)
  /-- Pages by the id of the document that refers to them. -/
  page? : Option String → Option (List Entity)
  /-- The documents whose references have been followed. -/
  isExpanded : String → Bool

namespace Cache

/-- Nothing is filed. -/
def empty : Cache := ⟨fun _ => none, fun _ => none, fun _ => false⟩

/-- Files a document. -/
def addEntity (cache : Cache) (id : String) (found : Option Entity) : Cache :=
  { cache with entity? := fun other => if other = id then some found else cache.entity? other }

/-- Files a page. -/
def addPage (cache : Cache) (parent : Option String) (page : List Entity) : Cache :=
  { cache with page? := fun other => if other = parent then some page else cache.page? other }

/-- Notes that the references of a document have been followed. -/
def addExpanded (cache : Cache) (id : String) : Cache :=
  { cache with isExpanded := fun other => other == id || cache.isExpanded other }

end Cache

namespace Memo

/-- What is filed at a node. -/
def cache (memo : Memo) (node : Nat) : Cache :=
  ⟨memo.entity? node, memo.page? node, memo.isExpanded node⟩

/-- The caches of the nodes of a plan, each at the place of its number. -/
def caches (memo : Memo) (plan : Plan) : List Cache := (List.range plan.nodeCount).map memo.cache

theorem getElem?_caches (memo : Memo) {plan : Plan} {node : Nat} (h : node < plan.nodeCount) :
    (memo.caches plan)[node]? = some (memo.cache node) := by
  rw [caches, List.getElem?_map, List.getElem?_range h]
  rfl

/-- Before the first step all caches are empty. -/
theorem caches_empty (plan : Plan) :
    Memo.empty.caches plan = List.replicate plan.nodeCount .empty := by
  have hcache : Memo.empty.cache = fun _ => Cache.empty := rfl
  rw [caches, hcache, List.map_const', List.length_range]

/-! ## Filing -/

/-- The change of a memo is a change of the cache of one node. -/
structure Files (node : Nat) (change : Cache → Cache) (file : Memo → Memo) : Prop where
  cache : ∀ memo n, (file memo).cache n =
    if n = node then change (memo.cache n) else memo.cache n
  gets : ∀ memo, (file memo).gets = memo.gets
  finds : ∀ memo, (file memo).finds = memo.finds
  hits : ∀ memo, (file memo).hits = memo.hits

theorem files_addEntity (node : Nat) (id : String) (found : Option Entity) :
    Files node (·.addEntity id found) (·.addEntity node id found) := by
  refine ⟨fun memo n => ?_, fun _ => rfl, fun _ => rfl, fun _ => rfl⟩
  have hentity : ((memo.addEntity node id found).cache n).entity? = fun other =>
      if n = node ∧ other = id then some found else memo.entity? n other :=
    funext fun other => entity?_addEntity memo node n id other found
  by_cases hn : n = node
  · simp only [hn, true_and] at hentity
    rw [hn, if_pos rfl]
    exact Cache.ext hentity rfl rfl
  · simp only [hn, false_and, if_false] at hentity
    rw [if_neg hn]
    exact Cache.ext hentity rfl rfl

theorem files_addPage (node : Nat) (parent : Option String) (page : List Entity) :
    Files node (·.addPage parent page) (·.addPage node parent page) := by
  refine ⟨fun memo n => ?_, fun _ => rfl, fun _ => rfl, fun _ => rfl⟩
  have hpage : ((memo.addPage node parent page).cache n).page? = fun other =>
      if n = node ∧ other = parent then some page else memo.page? n other :=
    funext fun other => page?_addPage memo node n parent other page
  by_cases hn : n = node
  · simp only [hn, true_and] at hpage
    rw [hn, if_pos rfl]
    exact Cache.ext rfl hpage rfl
  · simp only [hn, false_and, if_false] at hpage
    rw [if_neg hn]
    exact Cache.ext rfl hpage rfl

theorem files_addExpanded (node : Nat) (id : String) :
    Files node (·.addExpanded id) (·.addExpanded node id) := by
  refine ⟨fun memo n => ?_, fun _ => rfl, fun _ => rfl, fun _ => rfl⟩
  have hexpanded : ((memo.addExpanded node id).cache n).isExpanded = fun other =>
      n == node && other == id || memo.isExpanded n other :=
    funext fun other => List.contains_cons
  by_cases hn : n = node
  · simp only [hn, beq_self_eq_true, Bool.true_and] at hexpanded
    rw [hn, if_pos rfl]
    exact Cache.ext rfl rfl hexpanded
  · simp only [beq_false_of_ne hn, Bool.false_and, Bool.false_or] at hexpanded
    rw [if_neg hn]
    exact Cache.ext rfl rfl hexpanded

/-- The two memos have the same caches at some nodes, and the same counts. -/
structure AgreeOn (nodes : List Nat) (memo memo' : Memo) : Prop where
  cache : ∀ n ∈ nodes, memo.cache n = memo'.cache n
  gets : memo.gets = memo'.gets
  finds : memo.finds = memo'.finds
  hits : memo.hits = memo'.hits

section AgreeOn

variable {nodes : List Nat} {memo memo' : Memo} {node : Nat}

theorem AgreeOn.entity? (h : AgreeOn nodes memo memo') (hnode : node ∈ nodes) (id : String) :
    memo.entity? node id = memo'.entity? node id :=
  congrFun (congrArg Cache.entity? (h.cache node hnode)) id

theorem AgreeOn.page? (h : AgreeOn nodes memo memo') (hnode : node ∈ nodes)
    (parent : Option String) : memo.page? node parent = memo'.page? node parent :=
  congrFun (congrArg Cache.page? (h.cache node hnode)) parent

theorem AgreeOn.isExpanded (h : AgreeOn nodes memo memo') (hnode : node ∈ nodes) (id : String) :
    memo.isExpanded node id = memo'.isExpanded node id :=
  congrFun (congrArg Cache.isExpanded (h.cache node hnode)) id

theorem AgreeOn.mono {nodes' : List Nat} (h : AgreeOn nodes' memo memo') (hsub : nodes ⊆ nodes') :
    AgreeOn nodes memo memo' :=
  ⟨fun n hn => h.cache n (hsub hn), h.gets, h.finds, h.hits⟩

/-- Filing at one node, in either memo. -/
theorem AgreeOn.file (h : AgreeOn nodes memo memo') {change : Cache → Cache} {file : Memo → Memo}
    (hfiles : Files node change file) : AgreeOn nodes (file memo) (file memo') where
  cache n hn := by rw [hfiles.cache, hfiles.cache, h.cache n hn]
  gets := by rw [hfiles.gets, hfiles.gets, h.gets]
  finds := by rw [hfiles.finds, hfiles.finds, h.finds]
  hits := by rw [hfiles.hits, hfiles.hits, h.hits]

end AgreeOn

end Memo

namespace Pass

variable {α β σ : Type}

/-! ## Leading a step with a server -/

/-- The result of a step, the memo it leaves, and the state of the server after it. -/
def lead (server : Server σ) (step : Pass α) (memo : Memo) (s : σ) :
    (Except QueryError α × Memo) × σ :=
  (step.start memo).run server s

variable (server : Server σ)

theorem lead_bind (x : Pass α) (f : α → Pass β) (memo : Memo) (s : σ) :
    lead server (x >>= f) memo s =
      match lead server x memo s with
      | ((.ok a, memo), s) => lead server (f a) memo s
      | ((.error error, memo), s) => ((.error error, memo), s) := by
  unfold lead
  rw [start_bind, Dialogue.run_bind]
  generalize (x.start memo).run server s = ended
  obtain ⟨⟨result, left⟩, s'⟩ := ended
  cases result <;> rfl

theorem lead_get (f : Memo → Pass α) (memo : Memo) (s : σ) :
    lead server (get >>= f) memo s = lead server (f memo) memo s := rfl

theorem lead_ask (call : Call) (memo : Memo) (s : σ) :
    lead server (ask call) memo s
      = (((server s call).1.mapError .ofStore, memo), (server s call).2) := by
  rw [lead, start_ask, Dialogue.run]
  generalize server s call = answered
  obtain ⟨answer, s'⟩ := answered
  cases answer <;> rfl

/-! ## Steps that keep to some nodes -/

/-- A step looks up and files at some nodes only. The caches of the others stay as they are, and
from memos that agree on these nodes any server is led to the same result and the same state, with
memos that still agree on them. -/
structure Confined (nodes : List Nat) (step : Pass α) : Prop where
  keeps : ∀ {σ : Type} (server : Server σ) (s : σ) (memo : Memo) {n : Nat}, n ∉ nodes →
    (lead server step memo s).1.2.cache n = memo.cache n
  alike : ∀ {σ : Type} (server : Server σ) (s : σ) {memo memo' : Memo},
    Memo.AgreeOn nodes memo memo' →
      (lead server step memo s).1.1 = (lead server step memo' s).1.1 ∧
        Memo.AgreeOn nodes (lead server step memo s).1.2 (lead server step memo' s).1.2 ∧
        (lead server step memo s).2 = (lead server step memo' s).2

variable {nodes : List Nat} {step : Pass α}

/-- A step that is confined to some nodes is confined to more of them: the caches in between stay as
they are. -/
theorem Confined.mono {nodes' : List Nat} (h : Confined nodes step) (hsub : nodes ⊆ nodes') :
    Confined nodes' step where
  keeps server s memo n hn := h.keeps server s memo fun hmem => hn (hsub hmem)
  alike server s memo memo' hagree := by
    obtain ⟨hresult, hleft, hstate⟩ := h.alike server s (hagree.mono hsub)
    refine ⟨hresult, ⟨fun n hn => ?_, hleft.gets, hleft.finds, hleft.hits⟩, hstate⟩
    by_cases hmem : n ∈ nodes
    · exact hleft.cache n hmem
    · rw [h.keeps server s memo hmem, h.keeps server s memo' hmem]
      exact hagree.cache n hn

theorem confined_pure (a : α) : Confined nodes (pure a : Pass α) where
  keeps _ _ _ _ _ := rfl
  alike _ _ _ _ hagree := ⟨rfl, hagree, rfl⟩

theorem confined_throw (error : QueryError) : Confined nodes (throw error : Pass α) where
  keeps _ _ _ _ _ := rfl
  alike _ _ _ _ hagree := ⟨rfl, hagree, rfl⟩

theorem confined_ask (call : Call) : Confined nodes (ask call) where
  keeps server s memo n _ := by rw [lead_ask]
  alike server s memo memo' hagree := by
    rw [lead_ask, lead_ask]
    exact ⟨rfl, hagree, rfl⟩

/-- Filing at one of the nodes. -/
theorem confined_file {node : Nat} (hnode : node ∈ nodes) {change : Cache → Cache}
    {file : Memo → Memo} (hfiles : Memo.Files node change file) : Confined nodes (modify file) where
  keeps server s memo n hn := by
    show (file memo).cache n = memo.cache n
    rw [hfiles.cache, if_neg]
    rintro rfl
    exact hn hnode
  alike _ _ _ _ hagree := ⟨rfl, hagree.file hfiles, rfl⟩

/-- The counts belong to no node. -/
theorem confined_count (gets finds hits : Nat) :
    Confined nodes (modify fun memo => { memo with
      gets := memo.gets + gets, finds := memo.finds + finds, hits := memo.hits + hits }) where
  keeps _ _ _ _ _ := rfl
  alike _ _ memo memo' hagree := by
    refine ⟨rfl, ⟨hagree.cache, ?_, ?_, ?_⟩, rfl⟩
    · show memo.gets + gets = memo'.gets + gets
      rw [hagree.gets]
    · show memo.finds + finds = memo'.finds + finds
      rw [hagree.finds]
    · show memo.hits + hits = memo'.hits + hits
      rw [hagree.hits]

theorem Confined.bind {x : Pass α} {f : α → Pass β} (hx : Confined nodes x)
    (hf : ∀ a, Confined nodes (f a)) : Confined nodes (x >>= f) where
  keeps server s memo n hn := by
    have hfirst := hx.keeps server s memo hn
    rw [lead_bind]
    generalize lead server x memo s = ended at hfirst ⊢
    obtain ⟨⟨result, left⟩, s'⟩ := ended
    cases result with
    | ok a => exact ((hf a).keeps server s' left hn).trans hfirst
    | error error => exact hfirst
  alike server s memo memo' hagree := by
    obtain ⟨hresult, hleft, hstate⟩ := hx.alike server s hagree
    rw [lead_bind, lead_bind]
    generalize lead server x memo s = ended at hresult hleft hstate ⊢
    generalize lead server x memo' s = ended' at hresult hleft hstate ⊢
    obtain ⟨⟨result, left⟩, s₁⟩ := ended
    obtain ⟨⟨result', left'⟩, s₁'⟩ := ended'
    obtain rfl : result = result' := hresult
    obtain rfl : s₁ = s₁' := hstate
    cases result with
    | ok a => exact (hf a).alike server s₁ hleft
    | error error => exact ⟨rfl, hleft, rfl⟩

/-- What is done next may depend on what is filed at the nodes. -/
theorem confined_get {f : Memo → Pass α}
    (hsame : ∀ memo memo', Memo.AgreeOn nodes memo memo' → f memo = f memo')
    (hf : ∀ memo, Confined nodes (f memo)) : Confined nodes (get >>= f) where
  keeps server s memo _ hn := (hf memo).keeps server s memo hn
  alike server s memo memo' hagree := by
    rw [lead_get, lead_get, ← hsame memo memo' hagree]
    exact (hf memo).alike server s hagree

theorem Confined.discard (h : Confined nodes step) : Confined nodes (discard step) := by
  rw [discard_eq]
  exact h.bind fun _ => confined_pure ()

theorem confined_forEach {step : Entity → Pass Unit} (h : ∀ e, Confined nodes (step e)) :
    ∀ items : List Entity, Confined nodes (forEach step items)
  | [] => confined_pure ()
  | item :: items => (h item).bind fun _ => confined_forEach h items

/-! ## Resolving -/

theorem confined_fetchOne {plan : Plan} (hnode : plan.info.id ∈ nodes) (id : String) :
    Confined nodes (fetchOne plan id) := by
  unfold fetchOne
  refine confined_get (fun memo memo' hagree => ?_) fun memo => ?_
  · rw [hagree.entity? hnode]
  · cases memo.entity? plan.info.id id with
    | some entity => exact (confined_count 0 0 1).bind fun _ => confined_pure entity
    | none =>
      refine (confined_count 1 0 0).bind fun _ => (confined_ask _).bind fun entity => ?_
      exact (confined_file hnode (Memo.files_addEntity plan.info.id id entity)).bind fun _ =>
        confined_pure entity

theorem confined_fetchPage (p : Permission) (plan : Plan) {expand : Entity → Pass Unit}
    (hexpand : ∀ e, Confined nodes (expand e)) (link : Filter) :
    Confined nodes (fetchPage p plan expand link) := by
  unfold fetchPage
  cases p.narrow plan.info.collection (link ++ plan.info.scope.filter) with
  | error error => exact confined_throw error
  | ok filter =>
    refine (confined_count 0 1 0).bind fun _ => (confined_ask _).bind fun found => ?_
    exact (confined_forEach hexpand _).bind fun _ => confined_pure _

theorem confined_resolveOne (p : Permission) {plan : Plan} (hnode : plan.info.id ∈ nodes)
    {expand : Entity → Pass Unit} (hexpand : ∀ e, Confined nodes (expand e)) (id : String) :
    Confined nodes (resolveOne p plan expand id) := by
  rw [resolveOne_eq]
  split
  · refine (confined_fetchOne hnode id).bind fun found => ?_
    cases found with
    | none => exact confined_pure none
    | some e => exact (hexpand e).bind fun _ => confined_pure (some e)
  · exact confined_throw _

theorem confined_resolveMany (p : Permission) {plan : Plan} (hnode : plan.info.id ∈ nodes)
    {expand : Entity → Pass Unit} (hexpand : ∀ e, Confined nodes (expand e))
    (parent : Option String) (link : Filter) :
    Confined nodes (resolveMany p plan expand parent link) := by
  rw [resolveMany_eq]
  refine confined_get (fun memo memo' hagree => ?_) fun memo => ?_
  · rw [hagree.page? hnode]
  · cases memo.page? plan.info.id parent with
    | some page => exact (confined_count 0 0 1).bind fun _ => confined_pure page
    | none =>
      refine (confined_fetchPage p plan hexpand link).bind fun page => ?_
      exact (confined_file hnode (Memo.files_addPage plan.info.id parent page)).bind fun _ =>
        confined_pure page

/-! ## Following references -/

mutual

/-- Following the references of a document is confined to the numbers of the plan. -/
theorem confined_expand (p : Permission) : ∀ (plan : Plan) (e : Entity),
    Confined plan.ids (expand p plan e)
  | .node info ones manys, e => by
    have hroot : info.id ∈ (Plan.node info ones manys).ids := Plan.id_mem_ids _
    have hones : Plan.idsOf ones ⊆ (Plan.node info ones manys).ids := by
      intro n hn
      exact List.mem_cons_of_mem _ (List.mem_append_left _ hn)
    have hmanys : Plan.idsOf manys ⊆ (Plan.node info ones manys).ids := by
      intro n hn
      exact List.mem_cons_of_mem _ (List.mem_append_right _ hn)
    -- the root looks at its own cache, and each child keeps to its part of the numbers
    rw [expand]
    split
    · exact confined_pure ()
    · refine confined_get (fun memo memo' hagree => ?_) fun memo => ?_
      · rw [hagree.isExpanded hroot]
      · split
        · exact confined_pure ()
        · refine ((confined_followOnes p ones e).mono hones).bind fun _ => ?_
          refine ((confined_followManys p info.collection manys e).mono hmanys).bind fun _ => ?_
          exact confined_file hroot (Memo.files_addExpanded info.id e.id)

theorem confined_followOnes (p : Permission) : ∀ (ones : List (String × Plan)) (e : Entity),
    Confined (Plan.idsOf ones) (followOnes p ones e)
  | [], _ => confined_pure ()
  | (target, child) :: rest, e => by
    have hrest : Confined (Plan.idsOf ((target, child) :: rest)) (followOnes p rest e) :=
      (confined_followOnes p rest e).mono (List.subset_append_right ..)
    rw [followOnes]
    cases e.link target with
    | single id =>
      have hchild := confined_resolveOne p (Plan.id_mem_ids child) (confined_expand p child) id
      exact (hchild.discard.mono (List.subset_append_left ..)).bind fun _ => hrest
    | absent | many | invalid => exact hrest

theorem confined_followManys (p : Permission) :
    ∀ (collection : String) (manys : List (String × Plan)) (e : Entity),
      Confined (Plan.idsOf manys) (followManys p collection manys e)
  | _, [], _ => confined_pure ()
  | collection, (target, child) :: rest, e => by
    have hrest : Confined (Plan.idsOf ((target, child) :: rest))
        (followManys p collection rest e) :=
      (confined_followManys p collection rest e).mono (List.subset_append_right ..)
    rw [followManys]
    cases linkFilter? collection e target with
    | some link =>
      have hchild := confined_resolveMany p (Plan.id_mem_ids child) (confined_expand p child)
        (some e.id) link
      exact (hchild.discard.mono (List.subset_append_left ..)).bind fun _ => hrest
    | none => exact hrest

end

end Pass

/-! ## The list of caches -/

/-- Passes that start at the root, and the answers that are written after them, keep to the caches
of some nodes. -/
structure Plan.UsesOnly (nodes : List Nat) (plan : Plan) : Prop where
  one : ∀ p id, Pass.Confined nodes (Pass.one p plan id)
  many : ∀ p parent link, Pass.Confined nodes (Pass.many p plan parent link)
  answer : ∀ {memo memo' : Memo}, Memo.AgreeOn nodes memo memo' → ∀ select e,
    Answer.ofEntity memo plan select e = Answer.ofEntity memo' plan select e

/-- A plan keeps to the caches of its own nodes. -/
theorem Plan.usesOnly_ids (plan : Plan) : plan.UsesOnly plan.ids where
  one p id := Pass.confined_resolveOne p (Plan.id_mem_ids plan) (Pass.confined_expand p plan) id
  many p parent link :=
    Pass.confined_resolveMany p (Plan.id_mem_ids plan) (Pass.confined_expand p plan) parent link
  answer {memo memo'} hagree select e := by
    -- the two memos show the same documents to the same plan
    have hshows : Memo.Shows id (· ∈ plan.ids) Eq memo memo' := by
      refine ⟨fun n hn id => ?_, fun n hn parent => ?_⟩
      · rw [hagree.entity? hn]
        exact optionRel_refl (optionRel_refl fun _ => rfl) _
      · rw [hagree.page? hn, List.forall₂_eq_eq_eq]
        exact optionRel_refl (fun _ => rfl) _
    have hbelow : ∀ n ∈ plan.idsBelow, n ∈ plan.ids := by
      intro n hn
      rw [Plan.ids_eq]
      exact List.mem_cons_of_mem _ hn
    have hequal := Answer.ofEntity_alike Answer.renders_eq hshows hbelow select (rfl : e = e)
    rwa [Plan.renumber_id] at hequal

/-- **The numbers of a plan are places in its list of caches.** A plan that is built uses the
numbers below the number of its nodes, each for one node; a path leads to each of them, and a child
has a greater number than the node above it. So a list with one cache for each node, all of them
empty at first, has the cache of every node at the place of its number, and of all nodes below it,
and no two nodes have the same.

This is all that is ever looked at: a pass that starts at a node, and the answer that is written
there, depend on the caches of this node and of those below it alone, and the pass leaves all others
as they are. Passes that start at two nodes of which neither stands below the other have no cache in
common. -/
theorem Plan.build_indexes_caches {collection : String} {select : Option Selector} {scope : Scope}
    {plan : Plan} (h : build collection select scope = .ok plan) :
    plan.Indexes ∧ Memo.empty.caches plan = List.replicate plan.nodeCount .empty ∧
      ∀ path node, plan.node? path = some node →
        (∀ (memo : Memo), ∀ n ∈ node.ids, (memo.caches plan)[n]? = some (memo.cache n)) ∧
          node.UsesOnly node.ids := by
  refine ⟨Plan.indexes_of_build h, Memo.caches_empty plan, fun path node hnode => ⟨?_, ?_⟩⟩
  · intro memo n hn
    have hmem : n ∈ plan.ids := (Plan.within_of_node? hnode).2 hn
    exact memo.getElem?_caches (List.mem_range.mp ((Plan.ids_perm_range h).mem_iff.mp hmem))
  · exact node.usesOnly_ids

/-- Machines with their clusters, the data centers of these, and their disks with the storages. -/
def Plan.rackPlan : Plan :=
  .node ⟨0, "vm", [], false, .unrestricted⟩
    [("cluster", .node ⟨1, "cluster", ["name"], false, .unrestricted⟩
      [("data_center", .node ⟨2, "data_center", [], true, .unrestricted⟩ [] [])] [])]
    [("disk", .node ⟨3, "disk", [], false, .unrestricted⟩
      [("storage", .node ⟨4, "storage", [], true, .unrestricted⟩ [] [])] [])]

/-- The clusters are asked for twice and have one node. There are five caches, and a pass over the
disks leaves those of the machines and of the clusters as they are. -/
theorem Plan.build_indexes_caches_rack :
    Plan.build "vm" (some (.list [.one "cluster" (some (.one "data_center" none)),
        .many "disk" (some (.one "storage" none)) .unrestricted,
        .one "cluster" (some (.field "name"))])) .unrestricted = .ok rackPlan ∧
      rackPlan.ids.Perm (List.range 5) ∧ Memo.empty.caches rackPlan = List.replicate 5 .empty ∧
      ∃ disks, rackPlan.node? [.many "disk"] = some disks ∧ disks.ids = [3, 4] ∧
        (∀ memo : Memo, (memo.caches rackPlan)[4]? = some (memo.cache 4)) ∧
        ∀ (memo : Memo) (n : Nat), n < 3 →
          (Pass.lead Memory.answer (Pass.many .unrestricted disks (some "1") []) memo
            .empty).1.2.cache n = memo.cache n := by
  have hplan : Plan.build "vm" (some (.list [.one "cluster" (some (.one "data_center" none)),
      .many "disk" (some (.one "storage" none)) .unrestricted,
      .one "cluster" (some (.field "name"))])) .unrestricted = .ok rackPlan := rfl
  obtain ⟨hindexes, hempty, hnodes⟩ := Plan.build_indexes_caches hplan
  refine ⟨hplan, hindexes.places, hempty, _, rfl, rfl, fun memo => ?_, fun memo n hn => ?_⟩
  · exact (hnodes [.many "disk"] _ rfl).1 memo 4 (by decide)
  · refine ((hnodes [.many "disk"] _ rfl).2.many .unrestricted (some "1") []).keeps
      Memory.answer .empty memo ?_
    show n ∉ [3, 4]
    simp only [List.mem_cons, List.not_mem_nil, or_false]
    omega

end LinkedDocs
