import LinkedDocs.Proofs.Plan.Branches
import Mathlib.Data.List.Induction

/-!
# Numbers as places

The numbers of the nodes serve as places in a list that has one place for each node. They are given
out by a counter that goes along with loading, which makes a node for some references and finds one
for others, while the length of the list comes from a walk over the finished plan. That the two fit
together is `ids_perm_range`:

> a plan that is built has the numbers below `Plan.nodeCount`, each of them once.

Each of these numbers is that of a node at the end of a path (`lt_nodeCount_iff`), and it tells this
path from all others (`path_eq`), so nodes apart have nothing in common below them (`disjoint_ids`).
A node is made after the one above it, so the numbers ascend along every path (`Ascends`).
-/

namespace LinkedDocs.Plan

/-! ## Counting -/

mutual

theorem length_ids : ∀ p : Plan, p.ids.length = p.nodeCount
  | .node info ones manys => by
    rw [ids, nodeCount, List.length_cons, List.length_append, length_idsOf, length_idsOf]
    omega

theorem length_idsOf : ∀ entries : List (String × Plan),
    (idsOf entries).length = countChildren entries
  | [] => rfl
  | (_, child) :: rest => by
    rw [idsOf, countChildren, List.length_append, length_ids, length_idsOf]

end

variable {collection : String} {select : Option Selector} {scope : Scope} {plan : Plan}

/-- A plan that is built has the numbers below the number of its nodes, each of them once. -/
theorem ids_perm_range (h : build collection select scope = .ok plan) :
    plan.ids.Perm (List.range plan.nodeCount) := by
  obtain ⟨-, -, count, hperm⟩ := build_numbers h
  have hcount : plan.nodeCount = count := by
    rw [← length_ids, hperm.length_eq, List.length_range]
  rw [hcount]
  exact hperm

/-! ## Paths -/

theorem node?_append (p : Plan) (path rest : List Edge) :
    p.node? (path ++ rest) = (p.node? path).bind (·.node? rest) := by
  induction path generalizing p with
  | nil => rfl
  | cons edge path ih =>
    rw [List.cons_append, node?_cons, node?_cons]
    cases p.child? edge with
    | none => rfl
    | some child => exact ih child

theorem node?_singleton (p : Plan) (edge : Edge) : p.node? [edge] = p.child? edge := by
  rw [node?_cons]
  cases p.child? edge <;> rfl

/-- The node at the end of a path is a child of the node before it. -/
theorem of_node?_concat {p node : Plan} {path : List Edge} {edge : Edge}
    (h : p.node? (path ++ [edge]) = some node) :
    ∃ parent, p.node? path = some parent ∧ parent.child? edge = some node := by
  rw [node?_append] at h
  obtain ⟨parent, hparent, hchild⟩ := Option.bind_eq_some_iff.mp h
  exact ⟨parent, hparent, (node?_singleton parent edge).symm.trans hchild⟩

theorem mem_children_of_child? {p child : Plan} {edge : Edge} (h : p.child? edge = some child) :
    ⟨p, edge, child⟩ ∈ p.children := by
  cases edge with
  | one target =>
    exact List.mem_append_left _ (List.mem_map.mpr ⟨(target, child), Dict.mem_of_lookup h, rfl⟩)
  | many target =>
    exact List.mem_append_right _ (List.mem_map.mpr ⟨(target, child), Dict.mem_of_lookup h, rfl⟩)

/-- What stands at the end of a path is part of the plan. -/
theorem within_of_node? {p node : Plan} {path : List Edge} (h : p.node? path = some node) :
    node.branches ⊆ p.branches ∧ node.ids ⊆ p.ids := by
  induction path generalizing p with
  | nil =>
    cases h
    exact ⟨List.Subset.refl _, List.Subset.refl _⟩
  | cons edge path ih =>
    obtain ⟨child, hchild, hnode⟩ := Option.bind_eq_some_iff.mp h
    obtain ⟨hbranches, hids⟩ := ih hnode
    obtain ⟨-, -, hbelow, hsublist⟩ := child_within (mem_children_of_child? hchild)
    refine ⟨List.Subset.trans hbranches hbelow, fun id hid => ?_⟩
    rw [ids_eq]
    exact List.mem_cons_of_mem _ (hsublist.subset (hids hid))

theorem mem_branches_of_node? {p node child : Plan} {path : List Edge} {edge : Edge}
    (h : p.node? path = some node) (hchild : node.child? edge = some child) :
    ⟨node, edge, child⟩ ∈ p.branches :=
  (within_of_node? h).1 (child_within (mem_children_of_child? hchild)).2.1

/-- Where no number is used twice, the number of a node tells the path to it. -/
theorem path_eq {p node node' : Plan} {path path' : List Edge} (hnodup : p.ids.Nodup)
    (h : p.node? path = some node) (h' : p.node? path' = some node')
    (hid : node.info.id = node'.info.id) : path = path' := by
  induction path using List.reverseRecOn generalizing path' node node' with
  | nil =>
    obtain rfl : p = node := Option.some.inj h
    cases path' using List.reverseRecOn with
    | nil => rfl
    | append_singleton front edge _ =>
      -- the other path ends with a branch, and no branch leads to the root
      obtain ⟨parent, hparent, hchild⟩ := of_node?_concat h'
      exact absurd hid.symm (branch_ne_root hnodup (mem_branches_of_node? hparent hchild))
  | append_singleton path edge ih =>
    obtain ⟨parent, hparent, hchild⟩ := of_node?_concat h
    have hbranch := mem_branches_of_node? hparent hchild
    cases path' using List.reverseRecOn with
    | nil =>
      obtain rfl : p = node' := Option.some.inj h'
      exact absurd hid (branch_ne_root hnodup hbranch)
    | append_singleton front edge' _ =>
      obtain ⟨parent', hparent', hchild'⟩ := of_node?_concat h'
      have hsame := branch_eq hnodup hbranch (mem_branches_of_node? hparent' hchild') hid
      cases hsame
      rw [ih hparent hparent' rfl]

/-! ## Reaching every number -/

theorem exists_entry_of_mem_idsOf {id : Nat} {entries : List (String × Plan)}
    (h : id ∈ idsOf entries) : ∃ pair ∈ entries, id ∈ pair.2.ids := by
  induction entries with
  | nil => exact absurd h List.not_mem_nil
  | cons pair rest ih =>
    obtain ⟨target, child⟩ := pair
    rw [idsOf, List.mem_append] at h
    rcases h with hchild | hrest
    · exact ⟨_, List.mem_cons_self .., hchild⟩
    · obtain ⟨pair, hpair, hid⟩ := ih hrest
      exact ⟨pair, List.mem_cons_of_mem _ hpair, hid⟩

/-- A number below the root is a number of a child. -/
theorem Regular.exists_child {p : Plan} (h : p.Regular) {id : Nat} (hid : id ∈ p.idsBelow) :
    ∃ edge child, p.child? edge = some child ∧ id ∈ child.ids := by
  obtain ⟨⟨hones, -⟩, hmanys, -⟩ := regular_iff.mp h
  rcases List.mem_append.mp hid with hone | hmany
  · obtain ⟨⟨target, child⟩, hpair, hchild⟩ := exists_entry_of_mem_idsOf hone
    exact ⟨.one target, child, Dict.lookup_of_mem hones.nodup hpair, hchild⟩
  · obtain ⟨⟨target, child⟩, hpair, hchild⟩ := exists_entry_of_mem_idsOf hmany
    exact ⟨.many target, child, Dict.lookup_of_mem hmanys.nodup hpair, hchild⟩

/-- The numbers of a plan are those of the nodes that paths lead to. -/
theorem exists_node?_of_mem_ids {id : Nat} : ∀ {p : Plan}, p.Regular → id ∈ p.ids →
    ∃ path node, p.node? path = some node ∧ node.info.id = id := by
  refine @induct _ fun p ih => ?_
  intro h hid
  rw [ids_eq] at hid
  rcases List.mem_cons.mp hid with rfl | hbelow
  · exact ⟨[], p, rfl, rfl⟩
  · obtain ⟨edge, child, hchild, hmem⟩ := h.exists_child hbelow
    obtain ⟨path, node, hnode, hfound⟩ :=
      ih _ (mem_children_of_child? hchild) (h.child hchild).2 hmem
    refine ⟨edge :: path, node, ?_, hfound⟩
    rw [node?_cons, hchild]
    exact hnode

/-- The nodes of a plan that is built bear the numbers below the number of its nodes. -/
theorem lt_nodeCount_iff (h : build collection select scope = .ok plan) {number : Nat} :
    number < plan.nodeCount ↔ ∃ path node, plan.node? path = some node ∧ node.info.id = number := by
  have hmem : number ∈ plan.ids ↔ number < plan.nodeCount :=
    (ids_perm_range h).mem_iff.trans List.mem_range
  rw [← hmem]
  constructor
  · exact exists_node?_of_mem_ids (build_numbers h).1
  · rintro ⟨path, node, hnode, rfl⟩
    exact (within_of_node? hnode).2 (id_mem_ids node)

theorem Regular.of_node? {p node : Plan} {path : List Edge} (h : p.Regular)
    (hnode : p.node? path = some node) : node.Regular := by
  induction path generalizing p with
  | nil =>
    cases hnode
    exact h
  | cons edge path ih =>
    obtain ⟨child, hchild, hrest⟩ := Option.bind_eq_some_iff.mp hnode
    exact ih (h.child hchild).2 hrest

/-- Nodes of which neither stands below the other have no number in common below them. -/
theorem disjoint_ids {p node node' : Plan} {path path' : List Edge} (hregular : p.Regular)
    (hnodup : p.ids.Nodup) (h : p.node? path = some node) (h' : p.node? path' = some node')
    (hbelow : ¬ path <+: path') (habove : ¬ path' <+: path) : node.ids.Disjoint node'.ids := by
  intro id hid hid'
  obtain ⟨rest, last, hlast, hfound⟩ := exists_node?_of_mem_ids (hregular.of_node? h) hid
  obtain ⟨rest', last', hlast', hfound'⟩ := exists_node?_of_mem_ids (hregular.of_node? h') hid'
  -- both ways lead to the node of this number, so they are one path
  have hleads : p.node? (path ++ rest) = some last := by
    rw [node?_append, h]
    exact hlast
  have hleads' : p.node? (path' ++ rest') = some last' := by
    rw [node?_append, h']
    exact hlast'
  have hsame := path_eq hnodup hleads hleads' (hfound.trans hfound'.symm)
  have hprefix : path <+: path' ++ rest' := hsame ▸ List.prefix_append path rest
  rcases List.prefix_or_prefix_of_prefix hprefix (List.prefix_append path' rest') with hp | hp
  · exact hbelow hp
  · exact habove hp

/-! ## Numbers ascend -/

/-- All numbers are below `n`, and they ascend along every path. -/
def Ascends (p : Plan) (n : Nat) : Prop :=
  ∀ path node, p.node? path = some node → node.info.id < n ∧
    ∀ edge child, node.child? edge = some child → node.info.id < child.info.id

theorem Ascends.mono {p : Plan} {n n' : Nat} (h : p.Ascends n) (hle : n ≤ n') : p.Ascends n' :=
  fun path node hnode => ⟨Nat.lt_of_lt_of_le (h path node hnode).1 hle, (h path node hnode).2⟩

theorem ascends_iff {p : Plan} {n : Nat} :
    p.Ascends n ↔ p.info.id < n ∧
      ∀ edge child, p.child? edge = some child → p.info.id < child.info.id ∧ child.Ascends n := by
  constructor
  · intro h
    refine ⟨(h [] p rfl).1, fun edge child hchild => ⟨(h [] p rfl).2 edge child hchild, ?_⟩⟩
    intro path node hnode
    exact h (edge :: path) node (by rw [node?_cons, hchild]; exact hnode)
  · rintro ⟨hroot, hchildren⟩ path node hnode
    cases path with
    | nil =>
      obtain rfl : p = node := Option.some.inj hnode
      exact ⟨hroot, fun edge child hchild => (hchildren edge child hchild).1⟩
    | cons edge path =>
      obtain ⟨child, hchild, hrest⟩ := Option.bind_eq_some_iff.mp hnode
      exact (hchildren edge child hchild).2 path node hrest

theorem ascends_leaf {id n : Nat} (h : id < n) (collection : String) (scope : Scope) :
    (leaf id collection scope).Ascends n := by
  refine ascends_iff.mpr ⟨h, fun edge child hchild => ?_⟩
  rw [child?_leaf] at hchild
  cases hchild

/-- A plan with the same children and the same number at the root. -/
theorem Ascends.of_root {p p' : Plan} {n : Nat} (h : p.Ascends n) (hid : p'.info.id = p.info.id)
    (hchild : ∀ edge, p'.child? edge = p.child? edge) : p'.Ascends n := by
  rw [ascends_iff] at h ⊢
  rw [hid]
  refine ⟨h.1, fun edge child hfound => h.2 edge child ?_⟩
  rw [← hchild]
  exact hfound

/-- Putting a child in that has a greater number than the root. -/
theorem Ascends.withChild {p child' : Plan} {edge : Edge} {n : Nat} (h : p.Ascends n)
    (hid : p.info.id < child'.info.id) (hchild : child'.Ascends n) :
    (p.withChild edge child').Ascends n := by
  rw [ascends_iff] at h ⊢
  rw [info_withChild]
  refine ⟨h.1, fun other child hfound => ?_⟩
  rw [child?_withChild] at hfound
  split at hfound
  · cases hfound
    exact ⟨hid, hchild⟩
  · exact h.2 other child hfound

theorem chain_ascends : Chain fun p n p' n' =>
    p.Ascends n → n ≤ n' ∧ p'.info.id = p.info.id ∧ p'.Ascends n' where
  refl p n h := ⟨Nat.le_refl n, rfl, h⟩
  trans h h' hp := by
    obtain ⟨hle, hid, hq⟩ := h hp
    obtain ⟨hle', hid', hr⟩ := h' hq
    exact ⟨Nat.le_trans hle hle', hid'.trans hid, hr⟩
  readAll p n h := by
    have hid : p.readAll.info.id = p.info.id := by
      cases p
      rfl
    exact ⟨Nat.le_refl n, hid, h.of_root hid (child?_readAll p)⟩
  readField name p n h := by
    have hid : (p.readField name).info.id = p.info.id := by
      cases p
      rfl
    exact ⟨Nat.le_refl n, hid, h.of_root hid (child?_readField p name)⟩
  child := by
    intro p n edge scope child' n' hload h
    rw [info_withChild]
    obtain ⟨hroot, hchildren⟩ := ascends_iff.mp h
    cases hchild : p.child? edge with
    | some child =>
      rw [enter_of_some hchild] at hload
      obtain ⟨hlt, hascends⟩ := hchildren edge child hchild
      obtain ⟨hle, hid, hchild'⟩ := hload hascends
      refine ⟨hle, rfl, (h.mono hle).withChild ?_ hchild'⟩
      rw [hid]
      exact hlt
    | none =>
      rw [enter_of_none hchild] at hload
      obtain ⟨hle, hid, hchild'⟩ := hload (ascends_leaf (Nat.lt_succ_self n) edge.target scope)
      have hle' : n ≤ n' := Nat.le_of_succ_le hle
      refine ⟨hle', rfl, (h.mono hle').withChild ?_ hchild'⟩
      -- the new leaf has the number that comes next
      rw [hid]
      exact hroot

/-- A child has a greater number than the node above it. -/
theorem id_lt_of_child? (h : build collection select scope = .ok plan) {path : List Edge}
    {node child : Plan} {edge : Edge} (hnode : plan.node? path = some node)
    (hchild : node.child? edge = some child) : node.info.id < child.info.id := by
  obtain ⟨next, hload⟩ := of_build h
  obtain ⟨-, -, hascends⟩ := loadSub_preserves chain_ascends select hload
    (ascends_leaf Nat.zero_lt_one collection scope)
  exact (hascends path node hnode).2 edge child hchild

/-! ## The numbers of a plan that is built -/

/-- The numbers of the nodes are the places in a list that has one place for each node. -/
structure Indexes (plan : Plan) : Prop where
  /-- The places are all taken, each of them once. -/
  places : plan.ids.Perm (List.range plan.nodeCount)
  /-- They are taken by the nodes that paths lead to. -/
  reached : ∀ number, number < plan.nodeCount ↔
    ∃ path node, plan.node? path = some node ∧ node.info.id = number
  /-- No two paths lead to one place. -/
  apart : ∀ {path path' node node'}, plan.node? path = some node →
    plan.node? path' = some node' → node.info.id = node'.info.id → path = path'
  /-- Of two nodes of which neither stands below the other, no places below are the same. -/
  disjoint : ∀ {path path' node node'}, plan.node? path = some node →
    plan.node? path' = some node' → ¬ path <+: path' → ¬ path' <+: path →
      node.ids.Disjoint node'.ids
  /-- The place of a child comes after that of the node above it. -/
  ascend : ∀ {path node edge child}, plan.node? path = some node →
    node.child? edge = some child → node.info.id < child.info.id

theorem indexes_of_build (h : build collection select scope = .ok plan) : plan.Indexes := by
  have hnodup : plan.ids.Nodup := (ids_perm_range h).nodup_iff.mpr List.nodup_range
  exact ⟨ids_perm_range h, fun _ => lt_nodeCount_iff h, path_eq hnodup,
    disjoint_ids (build_numbers h).1 hnodup, id_lt_of_child? h⟩

end LinkedDocs.Plan
