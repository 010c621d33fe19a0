import LinkedDocs.Proofs.Plan.Nodes
import Mathlib.Data.List.Nodup

/-!
# The branches of a plan

A branch of a plan is an edge with the plans at its ends. As every node of a plan that is built has
a number of its own, the number of a node tells the branch that leads to it:

> `branch_eq`: branches that lead to nodes of the same number are the same.

The root is known by its number as well (`branch_ne_root`).
-/

namespace LinkedDocs.Plan

/-- An edge of a plan, from a node to one of its children. -/
structure Branch where
  parent : Plan
  edge : Edge
  child : Plan

/-- The branches that start at the root. -/
def children (p : Plan) : List Branch :=
  p.ones.map (fun pair => ⟨p, .one pair.1, pair.2⟩) ++
    p.manys.map (fun pair => ⟨p, .many pair.1, pair.2⟩)

mutual

/-- All branches. -/
def branches : Plan → List Branch
  | .node info ones manys =>
    branchesOf (.node info ones manys) .one ones ++ branchesOf (.node info ones manys) .many manys

/-- The branches to the children of a node, and all that start below. -/
def branchesOf (parent : Plan) (edge : String → Edge) : List (String × Plan) → List Branch
  | [] => []
  | (target, child) :: rest =>
    ⟨parent, edge target, child⟩ :: (child.branches ++ branchesOf parent edge rest)

end

/-- The numbers of the nodes below the root. -/
def idsBelow (p : Plan) : List Nat := idsOf p.ones ++ idsOf p.manys

theorem branches_eq (p : Plan) :
    p.branches = branchesOf p .one p.ones ++ branchesOf p .many p.manys := by
  cases p
  rfl

mutual

theorem map_id_branches : ∀ p : Plan, p.branches.map (·.child.info.id) = p.idsBelow
  | .node info ones manys => by
    rw [branches, List.map_append, map_id_branchesOf, map_id_branchesOf]
    rfl

theorem map_id_branchesOf (parent : Plan) (edge : String → Edge) :
    ∀ entries : List (String × Plan),
      (branchesOf parent edge entries).map (·.child.info.id) = idsOf entries
  | [] => rfl
  | (target, child) :: rest => by
    rw [branchesOf, List.map_cons, List.map_append, map_id_branches child,
      map_id_branchesOf parent edge rest, idsOf, ids_eq]
    rfl

end

/-! ## Numbers -/

theorem id_mem_ids (p : Plan) : p.info.id ∈ p.ids := by
  rw [ids_eq]
  exact List.mem_cons_self ..

theorem idsBelow_subset (p : Plan) : p.idsBelow ⊆ p.ids := by
  rw [ids_eq]
  exact List.subset_cons_self ..

theorem id_not_below {p : Plan} (h : p.ids.Nodup) : p.info.id ∉ p.idsBelow := by
  rw [ids_eq, List.nodup_cons] at h
  exact h.1

/-- The number of a node tells the branch that leads to it. -/
theorem branch_eq {root : Plan} (h : root.ids.Nodup) {b b' : Branch} (hb : b ∈ root.branches)
    (hb' : b' ∈ root.branches) (hid : b.child.info.id = b'.child.info.id) : b = b' := by
  rw [ids_eq, List.nodup_cons] at h
  have hnodup : (root.branches.map (·.child.info.id)).Nodup := by
    rw [map_id_branches]
    exact h.2
  exact List.inj_on_of_nodup_map hnodup hb hb' hid

/-- No branch leads to a node with the number of the root. -/
theorem branch_ne_root {root : Plan} (h : root.ids.Nodup) {b : Branch} (hb : b ∈ root.branches) :
    b.child.info.id ≠ root.info.id := by
  intro heq
  rw [ids_eq, List.nodup_cons] at h
  have hmem : b.child.info.id ∈ root.idsBelow := by
    rw [← map_id_branches]
    exact List.mem_map_of_mem hb
  rw [heq] at hmem
  exact h.1 hmem

/-! ## Children -/

theorem children_subset_of (parent : Plan) (edge : String → Edge) (entries : List (String × Plan)) :
    ∀ pair ∈ entries, ⟨parent, edge pair.1, pair.2⟩ ∈ branchesOf parent edge entries ∧
      pair.2.branches ⊆ branchesOf parent edge entries ∧ pair.2.ids.Sublist (idsOf entries) := by
  intro pair hpair
  induction entries with
  | nil => exact absurd hpair List.not_mem_nil
  | cons first rest ih =>
    obtain ⟨target, child⟩ := first
    rw [branchesOf, idsOf]
    rcases List.mem_cons.mp hpair with rfl | hrest
    · refine ⟨List.mem_cons_self .., fun b hb => ?_, List.sublist_append_left ..⟩
      exact List.mem_cons_of_mem _ (List.mem_append_left _ hb)
    · obtain ⟨hmem, hsubset, hsublist⟩ := ih hrest
      refine ⟨List.mem_cons_of_mem _ (List.mem_append_right _ hmem), fun b hb => ?_,
        hsublist.trans (List.sublist_append_right ..)⟩
      exact List.mem_cons_of_mem _ (List.mem_append_right _ (hsubset hb))

/-- What a branch from the root leads to is part of the plan. -/
theorem child_within {p : Plan} {b : Branch} (hb : b ∈ p.children) :
    b.parent = p ∧ b ∈ p.branches ∧ b.child.branches ⊆ p.branches ∧
      b.child.ids.Sublist p.idsBelow := by
  rw [branches_eq]
  rcases List.mem_append.mp hb with hone | hmany
  · obtain ⟨pair, hpair, rfl⟩ := List.mem_map.mp hone
    obtain ⟨hmem, hsubset, hsublist⟩ := children_subset_of p .one p.ones pair hpair
    exact ⟨rfl, List.mem_append_left _ hmem, fun b hb => List.mem_append_left _ (hsubset hb),
      hsublist.trans (List.sublist_append_left ..)⟩
  · obtain ⟨pair, hpair, rfl⟩ := List.mem_map.mp hmany
    obtain ⟨hmem, hsubset, hsublist⟩ := children_subset_of p .many p.manys pair hpair
    exact ⟨rfl, List.mem_append_right _ hmem, fun b hb => List.mem_append_right _ (hsubset hb),
      hsublist.trans (List.sublist_append_right ..)⟩

/-- Where numbers are given once, they are so below every branch. -/
theorem nodup_child {p : Plan} (h : p.ids.Nodup) {b : Branch} (hb : b ∈ p.children) :
    b.child.ids.Nodup := by
  obtain ⟨-, -, -, hids⟩ := child_within hb
  rw [ids_eq, List.nodup_cons] at h
  exact hids.nodup h.2

mutual

/-- What holds of a plan if it holds of all its children holds of every plan. -/
theorem induct {motive : Plan → Prop}
    (step : ∀ p : Plan, (∀ b ∈ p.children, motive b.child) → motive p) : ∀ p : Plan, motive p
  | .node info ones manys => step _ fun b hb => by
    rcases List.mem_append.mp hb with hone | hmany
    · obtain ⟨pair, hpair, rfl⟩ := List.mem_map.mp hone
      exact inductOf step ones pair hpair
    · obtain ⟨pair, hpair, rfl⟩ := List.mem_map.mp hmany
      exact inductOf step manys pair hpair

theorem inductOf {motive : Plan → Prop}
    (step : ∀ p : Plan, (∀ b ∈ p.children, motive b.child) → motive p) :
    ∀ entries : List (String × Plan), ∀ pair ∈ entries, motive pair.2
  | [], _, hpair => absurd hpair List.not_mem_nil
  | (_, child) :: rest, pair, hpair => by
    rcases List.mem_cons.mp hpair with rfl | hrest
    · exact induct step child
    · exact inductOf step rest pair hrest

end

theorem of_mem_branchesOf {parent : Plan} {edge : String → Edge} {entries : List (String × Plan)}
    {b : Branch} (hb : b ∈ branchesOf parent edge entries) :
    ∃ pair ∈ entries, b = ⟨parent, edge pair.1, pair.2⟩ ∨ b ∈ pair.2.branches := by
  induction entries with
  | nil => exact absurd hb List.not_mem_nil
  | cons first rest ih =>
    obtain ⟨target, child⟩ := first
    rw [branchesOf, List.mem_cons, List.mem_append] at hb
    rcases hb with hfirst | hbelow | hrest
    · exact ⟨_, List.mem_cons_self .., .inl hfirst⟩
    · exact ⟨_, List.mem_cons_self .., .inr hbelow⟩
    · obtain ⟨pair, hpair, hpairs⟩ := ih hrest
      exact ⟨pair, List.mem_cons_of_mem _ hpair, hpairs⟩

/-- Every branch starts at its parent. -/
theorem mem_children_parent : ∀ {p : Plan} {b : Branch}, b ∈ p.branches → b ∈ b.parent.children := by
  refine @induct _ fun p ih => ?_
  intro b hb
  rw [branches_eq, List.mem_append] at hb
  rcases hb with hone | hmany
  · obtain ⟨pair, hpair, rfl | hbelow⟩ := of_mem_branchesOf hone
    · exact List.mem_append_left _ (List.mem_map.mpr ⟨pair, hpair, rfl⟩)
    · exact ih _ (List.mem_append_left _ (List.mem_map.mpr ⟨pair, hpair, rfl⟩)) hbelow
  · obtain ⟨pair, hpair, rfl | hbelow⟩ := of_mem_branchesOf hmany
    · exact List.mem_append_right _ (List.mem_map.mpr ⟨pair, hpair, rfl⟩)
    · exact ih _ (List.mem_append_right _ (List.mem_map.mpr ⟨pair, hpair, rfl⟩)) hbelow

end LinkedDocs.Plan
