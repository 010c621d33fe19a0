import LinkedDocs.Proofs.Plan.Paths
import LinkedDocs.Proofs.Sorted

/-!
# The nodes of a plan

The nodes of a plan that is built for a selector are numbered from zero, each number once
(`build_numbers`). Loading adds a block of new numbers:

> `loadSub_numbers`: the numbers are those that were there and those from `n` up to `n'`.

That a child is put in place of the one it came from needs the children to be sorted by target; that
they are, and are of the collections that they are sorted by, is `Plan.Regular`.
-/

namespace LinkedDocs

namespace Plan

mutual

/-- The numbers of the nodes. -/
def ids : Plan → List Nat
  | .node info ones manys => info.id :: (idsOf ones ++ idsOf manys)

/-- The numbers of the nodes of all children. -/
def idsOf : List (String × Plan) → List Nat
  | [] => []
  | (_, child) :: rest => child.ids ++ idsOf rest

end

theorem idsOf_append (before after : List (String × Plan)) :
    idsOf (before ++ after) = idsOf before ++ idsOf after := by
  induction before with
  | nil => rfl
  | cons pair rest ih =>
    obtain ⟨name, child⟩ := pair
    rw [List.cons_append, idsOf, idsOf, ih, List.append_assoc]

theorem ids_eq (p : Plan) : p.ids = p.info.id :: (idsOf p.ones ++ idsOf p.manys) := by
  cases p
  rfl

mutual

/-- The children are sorted by target and of the collection of their target, at every depth. -/
def Regular : Plan → Prop
  | .node _ ones manys =>
    (SortedByName ones ∧ AllRegular ones) ∧ SortedByName manys ∧ AllRegular manys

/-- The children are of the collection of their target and regular themselves. -/
def AllRegular : List (String × Plan) → Prop
  | [] => True
  | (target, child) :: rest =>
    (child.info.collection = target ∧ child.Regular) ∧ AllRegular rest

end

theorem allRegular_iff {entries : List (String × Plan)} :
    AllRegular entries ↔
      ∀ pair ∈ entries, pair.2.info.collection = pair.1 ∧ pair.2.Regular := by
  induction entries with
  | nil => simp [AllRegular]
  | cons pair rest ih =>
    obtain ⟨target, child⟩ := pair
    simp [AllRegular, ih]

theorem regular_iff {p : Plan} :
    p.Regular ↔ (SortedByName p.ones ∧ AllRegular p.ones) ∧ SortedByName p.manys ∧
      AllRegular p.manys := by
  cases p
  rfl

/-- The children of a regular plan are of the collections that their edges lead to. -/
theorem Regular.child {p child : Plan} {edge : Edge} (h : p.Regular)
    (hchild : p.child? edge = some child) :
    child.info.collection = edge.target ∧ child.Regular := by
  obtain ⟨⟨-, hones⟩, -, hmanys⟩ := regular_iff.mp h
  cases edge with
  | one target => exact allRegular_iff.mp hones _ (Dict.mem_of_lookup hchild)
  | many target => exact allRegular_iff.mp hmanys _ (Dict.mem_of_lookup hchild)

theorem AllRegular.putSorted {entries : List (String × Plan)} {target : String} {child : Plan}
    (h : AllRegular entries) (hcollection : child.info.collection = target)
    (hchild : child.Regular) : AllRegular (putSorted target child entries) := by
  refine allRegular_iff.mpr fun pair hpair => ?_
  rcases mem_putSorted hpair with rfl | hmem
  · exact ⟨hcollection, hchild⟩
  · exact allRegular_iff.mp h pair hmem

theorem Regular.withChild {p child : Plan} {edge : Edge} (h : p.Regular)
    (hcollection : child.info.collection = edge.target) (hchild : child.Regular) :
    (p.withChild edge child).Regular := by
  obtain ⟨⟨hsorted, hones⟩, hsorted', hmanys⟩ := regular_iff.mp h
  cases edge with
  | one target =>
    exact ⟨⟨hsorted.putSorted target child, hones.putSorted hcollection hchild⟩, hsorted', hmanys⟩
  | many target =>
    exact ⟨⟨hsorted, hones⟩, hsorted'.putSorted target child, hmanys.putSorted hcollection hchild⟩

theorem regular_leaf (id : Nat) (collection : String) (scope : Scope) :
    (leaf id collection scope).Regular :=
  ⟨⟨List.Pairwise.nil, trivial⟩, List.Pairwise.nil, trivial⟩

/-! ## Numbers -/

/-- Where a child takes the place of another one, or comes in new, its new numbers come in. -/
theorem idsOf_putSorted {entries : List (String × Plan)} (hsorted : SortedByName entries)
    {target : String} {child : Plan} {more : List Nat}
    (hold : ∀ old, entries.lookup target = some old → child.ids.Perm (old.ids ++ more))
    (hnew : entries.lookup target = none → child.ids.Perm more) :
    (idsOf (putSorted target child entries)).Perm (idsOf entries ++ more) := by
  -- the child comes in at one place, so every number is counted
  rw [List.perm_iff_count]
  intro id
  cases hfind : entries.lookup target with
  | some old =>
    obtain ⟨before, after, hsplit, hput⟩ := putSorted_of_lookup hsorted hfind child
    have hcount := (hold old hfind).count_eq id
    rw [List.count_append] at hcount
    rw [hput, hsplit]
    simp only [idsOf_append, idsOf, List.count_append]
    omega
  | none =>
    obtain ⟨before, after, hsplit, hput⟩ := putSorted_of_lookup_none hfind child
    have hcount := (hnew hfind).count_eq id
    rw [hput, hsplit]
    simp only [idsOf_append, idsOf, List.count_append]
    omega

theorem ids_withChild {p child : Plan} {edge : Edge} (h : p.Regular) {more : List Nat}
    (hold : ∀ old, p.child? edge = some old → child.ids.Perm (old.ids ++ more))
    (hnew : p.child? edge = none → child.ids.Perm more) :
    (p.withChild edge child).ids.Perm (p.ids ++ more) := by
  obtain ⟨⟨hsorted, -⟩, hsorted', -⟩ := regular_iff.mp h
  rw [List.perm_iff_count]
  intro id
  cases edge with
  | one target =>
    have hcount := (idsOf_putSorted hsorted hold hnew).count_eq id
    rw [List.count_append] at hcount
    simp only [withChild, withOne, ids_eq, info, ones, manys, List.count_append,
      List.count_cons] at hcount ⊢
    omega
  | many target =>
    have hcount := (idsOf_putSorted hsorted' hold hnew).count_eq id
    rw [List.count_append] at hcount
    simp only [withChild, withMany, ids_eq, info, ones, manys, List.count_append,
      List.count_cons] at hcount ⊢
    omega

/-- The second plan has the nodes of the first one, and one more for each number from the next node
of the first up to that of the second. -/
structure Numbers (p : Plan) (n : Nat) (p' : Plan) (n' : Nat) : Prop where
  regular : p'.Regular
  collection : p'.info.collection = p.info.collection
  le : n ≤ n'
  ids : p'.ids.Perm (p.ids ++ List.range' n (n' - n))

theorem Numbers.refl {p : Plan} (h : p.Regular) (n : Nat) : Numbers p n p n :=
  ⟨h, rfl, Nat.le_refl n, by simp⟩

theorem Numbers.trans {p q r : Plan} {n k l : Nat} (h : Numbers p n q k) (h' : Numbers q k r l) :
    Numbers p n r l := by
  refine ⟨h'.regular, h'.collection.trans h.collection, Nat.le_trans h.le h'.le, ?_⟩
  have hle := h.le
  have hle' := h'.le
  -- the two blocks of numbers follow each other
  have hblock : List.range' n (l - n) = List.range' n (k - n) ++ List.range' k (l - k) := by
    rw [show l - n = (k - n) + (l - k) by omega, ← List.range'_append_1,
      show n + (k - n) = k by omega]
  rw [hblock, ← List.append_assoc]
  exact h'.ids.trans (h.ids.append_right _)

/-- The first number of a block and the others. -/
theorem range'_block {n n' : Nat} (h : n + 1 ≤ n') :
    List.range' n (n' - n) = n :: List.range' (n + 1) (n' - (n + 1)) := by
  rw [show n' - n = (n' - (n + 1)) + 1 by omega, List.range'_succ]

theorem chain_numbers : Chain fun p n p' n' => p.Regular → Numbers p n p' n' where
  refl _ n h := .refl h n
  trans h h' hp := (h hp).trans (h' (h hp).regular)
  readAll p n h := by
    cases p
    exact ⟨h, rfl, Nat.le_refl n, by simp [readAll, ids]⟩
  readField name p n h := by
    cases p
    exact ⟨h, rfl, Nat.le_refl n, by simp [readField, ids]⟩
  child := by
    intro p n edge scope child' n' hload h
    cases hchild : p.child? edge with
    | some child =>
      rw [enter_of_some hchild] at hload
      obtain ⟨hcollection, hregular⟩ := h.child hchild
      have hnumbers := hload hregular
      refine ⟨h.withChild (hnumbers.collection.trans hcollection) hnumbers.regular,
        by rw [info_withChild], hnumbers.le, ids_withChild h (fun old hold => ?_) fun hnone => ?_⟩
      · cases hchild.symm.trans hold
        exact hnumbers.ids
      · rw [hchild] at hnone
        cases hnone
    | none =>
      rw [enter_of_none hchild] at hload
      have hnumbers := hload (regular_leaf n edge.target scope)
      have hlt : n + 1 ≤ n' := hnumbers.le
      refine ⟨h.withChild hnumbers.collection hnumbers.regular, by rw [info_withChild],
        by omega, ids_withChild h (fun old hold => ?_) fun _ => ?_⟩
      · rw [hchild] at hold
        cases hold
      · -- the new leaf has the first of the new numbers
        rw [range'_block hlt]
        exact hnumbers.ids

/-- The numbers of a plan that has been loaded. -/
theorem loadSub_numbers {sub : Option Selector} {p p' : Plan} {n n' : Nat}
    (h : loadSub sub p n = .ok (p', n')) (hp : p.Regular) : Numbers p n p' n' :=
  loadSub_preserves chain_numbers sub h hp

/-- A plan is built by loading into a leaf. -/
theorem of_build {collection : String} {select : Option Selector} {scope : Scope} {plan : Plan}
    (h : build collection select scope = .ok plan) :
    ∃ next, loadSub select (leaf 0 collection scope) 1 = .ok (plan, next) := by
  rw [build] at h
  cases hload : loadSub select (leaf 0 collection scope) 1 with
  | error error => simp [hload, Except.map] at h
  | ok loaded =>
    simp only [hload, Except.map] at h
    cases h
    exact ⟨loaded.2, rfl⟩

/-- A plan that is built is regular, and its nodes are numbered from zero, each once. -/
theorem build_numbers {collection : String} {select : Option Selector} {scope : Scope} {plan : Plan}
    (h : build collection select scope = .ok plan) :
    plan.Regular ∧ plan.info.collection = collection ∧
      ∃ count, plan.ids.Perm (List.range count) := by
  obtain ⟨next, hload⟩ := of_build h
  have hnumbers := loadSub_numbers hload (regular_leaf 0 collection scope)
  have hlt : 1 ≤ next := hnumbers.le
  refine ⟨hnumbers.regular, hnumbers.collection, next, ?_⟩
  rw [List.range_eq_range']
  exact (range'_block hlt) ▸ hnumbers.ids

/-! ## Places -/

/-- Where a node stands: what hangs below it and, for the node of a many reference, the collection
of the documents that refer to it. -/
structure Place where
  plan : Plan
  referrer : Option String

/-- What stands under each number. -/
abbrev Layout := Nat → Option Place

mutual

/-- The layout has every node of the plan at its place. -/
def Placed (layout : Layout) (referrer : Option String) : Plan → Prop
  | .node info ones manys =>
    layout info.id = some ⟨.node info ones manys, referrer⟩ ∧ AllPlaced layout none ones ∧
      AllPlaced layout (some info.collection) manys

/-- The layout has every node of all children at its place. -/
def AllPlaced (layout : Layout) (referrer : Option String) : List (String × Plan) → Prop
  | [] => True
  | (_, child) :: rest => Placed layout referrer child ∧ AllPlaced layout referrer rest

end

theorem Placed.root {layout : Layout} {referrer : Option String} {p : Plan}
    (h : Placed layout referrer p) : layout p.info.id = some ⟨p, referrer⟩ := by
  cases p
  exact h.1

theorem allPlaced_iff {layout : Layout} {referrer : Option String}
    {entries : List (String × Plan)} :
    AllPlaced layout referrer entries ↔ ∀ pair ∈ entries, Placed layout referrer pair.2 := by
  induction entries with
  | nil => simp [AllPlaced]
  | cons pair rest ih => simp [AllPlaced, ih]

theorem Placed.one {layout : Layout} {referrer : Option String} {p child : Plan} {target : String}
    (h : Placed layout referrer p) (hchild : p.child? (.one target) = some child) :
    Placed layout none child := by
  cases p
  exact allPlaced_iff.mp h.2.1 _ (Dict.mem_of_lookup hchild)

theorem Placed.many {layout : Layout} {referrer : Option String} {p child : Plan} {target : String}
    (h : Placed layout referrer p) (hchild : p.child? (.many target) = some child) :
    Placed layout (some p.info.collection) child := by
  cases p
  exact allPlaced_iff.mp h.2.2 _ (Dict.mem_of_lookup hchild)

mutual

/-- The nodes of a plan with their places. -/
def places (referrer : Option String) : Plan → List (Nat × Place)
  | .node info ones manys =>
    (info.id, ⟨.node info ones manys, referrer⟩) ::
      (placesOf none ones ++ placesOf (some info.collection) manys)

/-- The nodes of all children with their places. -/
def placesOf (referrer : Option String) : List (String × Plan) → List (Nat × Place)
  | [] => []
  | (_, child) :: rest => places referrer child ++ placesOf referrer rest

end

mutual

theorem map_fst_places (referrer : Option String) :
    ∀ p : Plan, (places referrer p).map Prod.fst = p.ids
  | .node info ones manys => by
    rw [places, ids, List.map_cons, List.map_append, map_fst_placesOf, map_fst_placesOf]

theorem map_fst_placesOf (referrer : Option String) :
    ∀ entries : List (String × Plan), (placesOf referrer entries).map Prod.fst = idsOf entries
  | [] => rfl
  | (_, child) :: rest => by
    rw [placesOf, idsOf, List.map_append, map_fst_places, map_fst_placesOf]

end

mutual

theorem placed_of_places {layout : Layout} : ∀ {referrer : Option String} {p : Plan},
    (∀ entry ∈ places referrer p, layout entry.1 = some entry.2) → Placed layout referrer p
  | referrer, .node info ones manys, h => by
    rw [places] at h
    refine ⟨h _ (List.mem_cons_self ..), ?_, ?_⟩
    · exact allPlaced_of_placesOf fun entry hentry =>
        h entry (List.mem_cons_of_mem _ (List.mem_append_left _ hentry))
    · exact allPlaced_of_placesOf fun entry hentry =>
        h entry (List.mem_cons_of_mem _ (List.mem_append_right _ hentry))

theorem allPlaced_of_placesOf {layout : Layout} :
    ∀ {referrer : Option String} {entries : List (String × Plan)},
      (∀ entry ∈ placesOf referrer entries, layout entry.1 = some entry.2) →
        AllPlaced layout referrer entries
  | _, [], _ => trivial
  | referrer, (_, child) :: rest, h => by
    rw [placesOf] at h
    exact ⟨placed_of_places fun entry hentry => h entry (List.mem_append_left _ hentry),
      allPlaced_of_placesOf fun entry hentry => h entry (List.mem_append_right _ hentry)⟩

end

theorem lookup_of_mem {α : Type} {entries : List (Nat × α)} (hnodup : (entries.map Prod.fst).Nodup)
    {id : Nat} {value : α} (h : (id, value) ∈ entries) : entries.lookup id = some value := by
  induction entries with
  | nil => simp at h
  | cons pair rest ih =>
    obtain ⟨key, old⟩ := pair
    obtain ⟨hkey, hrest⟩ := List.nodup_cons.mp hnodup
    rcases List.mem_cons.mp h with heq | hmem
    · cases heq
      simp
    · have hne : id ≠ key := by
        rintro rfl
        have hthere : (id, value).1 ∈ rest.map Prod.fst := List.mem_map_of_mem hmem
        exact hkey hthere
      rw [List.lookup_cons, beq_false_of_ne hne]
      exact ih hrest hmem

/-- Where every number is used once, there is a layout. -/
theorem exists_layout {p : Plan} (h : p.ids.Nodup) : ∃ layout, Placed layout none p := by
  refine ⟨fun id => (places none p).lookup id, placed_of_places fun entry hentry => ?_⟩
  refine lookup_of_mem ?_ hentry
  rw [map_fst_places]
  exact h

end Plan

end LinkedDocs
