import LinkedDocs.Answer
import LinkedDocs.Proofs.Pass.Simulation
import LinkedDocs.Proofs.Plan.Branches

/-!
# Answers side by side

Two answers are written from two memos, of which one shows what the other shows, and by one
selector. What is written differs in nothing but what the entities differ in:

> `ofEntity_alike`: the answers are related, if the relations fit together.

The relations are parameters: `E` of entities, `V` of values and `F` of fields. That they fit
(`Answer.Renders`) says that whatever is written of related entities is related. In particular
fields of which there is one at most have the same name, however little `F` says about their order.
A chain below a many reference relies on that, since it is written as one key with the values of all
documents, and never writes more than one key for a document (`size_write_le`).
-/

namespace LinkedDocs

variable {number : Nat → Nat} {nodes : Nat → Prop} {E : Entity → Entity → Prop}
  {memo memo' : Memo}

/-- What documents refer to at some nodes is shown by the second memo as by the first one. -/
structure Memo.Shows (number : Nat → Nat) (nodes : Nat → Prop) (E : Entity → Entity → Prop)
    (memo memo' : Memo) : Prop where
  entity : ∀ node, nodes node → ∀ id, Option.Rel (Option.Rel E) (memo.entity? node id)
    (memo'.entity? (number node) id)
  page : ∀ node, nodes node → ∀ parent, Option.Rel (List.Forall₂ E)
    (memo.page? node (some parent)) (memo'.page? (number node) (some parent))

theorem Memo.Tracks.shows (h : Memo.Tracks number E memo memo') :
    Memo.Shows number nodes E memo memo' :=
  ⟨fun node _ => h.entity node, fun node _ parent => h.page node (some parent)⟩

/-- The numbers below a child are numbers below the root. -/
theorem Plan.ids_subset_of_lookup {target : String} {child : Plan} {entries : List (String × Plan)}
    (h : entries.lookup target = some child) : child.ids ⊆ Plan.idsOf entries := by
  have hchild := Plan.children_subset_of child .one entries (target, child) (Dict.mem_of_lookup h)
  exact hchild.2.2.subset

namespace Answer

/-- Two members have the same name and related values. -/
def MemberAlike (V : Value → Value → Prop) (x y : String × Value) : Prop :=
  x.1 = y.1 ∧ V x.2 y.2

/-- Relations of entities, values and fields fit together. -/
structure Renders (E : Entity → Entity → Prop) (V : Value → Value → Prop)
    (F : Fields → Fields → Prop) : Prop where
  alike : ∀ a b, E a b → a.Alike b
  whole : ∀ a b, E a b → V a.toValue b.toValue
  refl : ∀ v, V v v
  isNull : ∀ v w, V v w → v.isNull = w.isNull
  array : ∀ vs ws, List.Forall₂ V vs ws → V (.array vs) (.array ws)
  object : ∀ f g, F f g → V (.ofFields f) (.ofFields g)
  empty : F .empty .empty
  set : ∀ f g, F f g → ∀ key v w, V v w → F (f.set key v) (g.set key w)
  all : ∀ a b, E a b → ∀ f g, F f g → ∀ start, F (writeFields start f a) (writeFields start g b)
  entries : ∀ f g, F f g → f.size ≤ 1 → g.size ≤ 1 →
    List.Forall₂ (MemberAlike V) f.entries g.entries

/-! ## Chains -/

/-- A selector that is written as one key, if at all. -/
def isChain : Selector → Bool
  | .field _ | .one .. | .many .. => true
  | .wildcard | .list _ => false

/-- Nothing and one key. -/
theorem size_set_empty_le (key : String) (value : Value) :
    ((Dict.empty : Fields).set key value).size ≤ 1 := Nat.le_refl 1

theorem size_empty_le : (Dict.empty : Fields).size ≤ 1 := Nat.zero_le 1

mutual

/-- A chain writes one key at most. -/
theorem size_write_le (memo : Memo) : ∀ (selector : Selector) (plan : Plan) (e : Entity)
    (start : String), isChain selector = true →
      (write memo selector plan e start .empty).size ≤ 1
  | .wildcard, _, _, _, h => by cases h
  | .list _, _, _, _, h => by cases h
  | .field name, _, e, start, _ => by
    rw [write]
    split
    · exact size_set_empty_le _ _
    · exact size_empty_le
  | .one target sub, plan, e, start, _ => by
    rw [write]
    split
    · exact size_empty_le
    · split
      · exact size_empty_le
      · exact size_writeOne_le memo sub _ _ _
  | .many target sub _, plan, e, start, _ => by
    rw [write]
    split
    · exact size_empty_le
    · split
      · exact size_empty_le
      · exact size_writeMany_le memo sub _ _ _

theorem size_writeOne_le (memo : Memo) : ∀ (sub : Option Selector) (child : Plan)
    (found : Entity) (key : String), (writeOne memo sub child found key .empty).size ≤ 1
  | none, _, _, _ | some .wildcard, _, _, _ | some (.list _), _, _, _ => size_set_empty_le _ _
  | some (.field name), child, found, _ => size_write_le memo (.field name) child found _ rfl
  | some (.one target sub), child, found, _ =>
    size_write_le memo (.one target sub) child found _ rfl
  | some (.many target sub scope), child, found, _ =>
    size_write_le memo (.many target sub scope) child found _ rfl

theorem size_writeMany_le (memo : Memo) : ∀ (sub : Option Selector) (child : Plan)
    (members : List Entity) (key : String), (writeMany memo sub child members key .empty).size ≤ 1
  | none, _, _, _ | some .wildcard, _, _, _ | some (.list _), _, _, _
  | some (.field _), _, _, _ => size_set_empty_le _ _
  | some (.one target sub), child, members, key => by
    rw [writeMany]
    · split
      · exact size_set_empty_le _ _
      · exact size_empty_le
    all_goals simp
  | some (.many target sub scope), child, members, key => by
    rw [writeMany]
    · split
      · exact size_set_empty_le _ _
      · exact size_empty_le
    all_goals simp

end

/-! ## Writing -/

variable {V : Value → Value → Prop} {F : Fields → Fields → Prop}

/-- The values of a field over alike documents are the same. -/
theorem collect_congr (hE : ∀ a b, E a b → a.Alike b) (name : String) {as bs : List Entity}
    (h : List.Forall₂ E as bs) : collect name as = collect name bs := by
  rw [collect, collect, forall₂_filterMap_eq (fun a b hab => hE a b hab name) h]

/-- What chains have written for related documents is gathered alike. -/
theorem gather_alike (renders : Renders E V F) {written written' : List Fields}
    (h : List.Forall₂ (fun f g => List.Forall₂ (MemberAlike V) f.entries g.entries)
      written written') :
    Option.Rel (fun x y => x.1 = y.1 ∧ List.Forall₂ V x.2 y.2) (gather written)
      (gather written') := by
  have hentries : List.Forall₂ (MemberAlike V) (written.flatMap (·.entries))
      (written'.flatMap (·.entries)) := by
    induction h with
    | nil => exact .nil
    | cons hfg _ ih =>
      rw [List.flatMap_cons, List.flatMap_cons]
      exact List.rel_append hfg ih
  have hpairs : List.Forall₂ (MemberAlike V)
      ((written.flatMap (·.entries)).filter fun pair => !pair.2.isNull)
      ((written'.flatMap (·.entries)).filter fun pair => !pair.2.isNull) := by
    refine List.rel_filter ?_ hentries
    intro x y hxy
    show (!x.2.isNull) = true ↔ (!y.2.isNull) = true
    rw [renders.isNull _ _ hxy.2]
  unfold gather
  dsimp only
  generalize (written.flatMap (·.entries)).filter (fun pair => !pair.2.isNull) = pairs at hpairs ⊢
  generalize (written'.flatMap (·.entries)).filter (fun pair => !pair.2.isNull) = pairs'
    at hpairs ⊢
  have hvalues : List.Forall₂ V (pairs.map Prod.snd) (pairs'.map Prod.snd) := by
    rw [List.forall₂_map_left_iff, List.forall₂_map_right_iff]
    exact hpairs.imp fun _ _ hpair => hpair.2
  cases hpairs with
  | nil => exact .none
  | cons hfirst _ => exact .some ⟨hfirst.1, hvalues⟩

/-- So is what a chain writes below a many reference, one key with the values of all documents. -/
theorem gathered_alike (renders : Renders E V F) {chain : Selector} (hchain : isChain chain = true)
    {child child' : Plan} {start : String}
    (hwrite : ∀ a b, E a b → F (write memo chain child a start .empty)
      (write memo' chain child' b start .empty))
    {as bs : List Entity} (hab : List.Forall₂ E as bs) {f g : Fields} (hfg : F f g) :
    F (match gather (as.map fun member => write memo chain child member start .empty) with
        | some (name, values) => f.set name (.array values)
        | none => f)
      (match gather (bs.map fun member => write memo' chain child' member start .empty) with
        | some (name, values) => g.set name (.array values)
        | none => g) := by
  have hwritten : List.Forall₂ (fun f g => List.Forall₂ (MemberAlike V) f.entries g.entries)
      (as.map fun member => write memo chain child member start .empty)
      (bs.map fun member => write memo' chain child' member start .empty) := by
    rw [List.forall₂_map_left_iff, List.forall₂_map_right_iff]
    exact hab.imp fun a b hab => renders.entries _ _ (hwrite a b hab)
      (size_write_le memo chain child a start hchain)
      (size_write_le memo' chain child' b start hchain)
  have hgathered := gather_alike renders hwritten
  generalize gather (as.map fun member => write memo chain child member start .empty) = found
    at hgathered ⊢
  generalize gather (bs.map fun member => write memo' chain child' member start .empty) = found'
    at hgathered ⊢
  cases hgathered with
  | none => exact hfg
  | @some x y hxy =>
    obtain ⟨name, values⟩ := x
    obtain ⟨name', values'⟩ := y
    obtain ⟨rfl, hvalues⟩ := hxy
    exact renders.set f g hfg name _ _ (renders.array _ _ hvalues)

theorem referenced?_alike (hE : ∀ a b, E a b → a.Alike b) (h : Memo.Shows number nodes E memo memo')
    {child : Plan} (hnode : nodes child.info.id) {a b : Entity} (hab : E a b) (target : String) :
    Option.Rel E (referenced? memo child a target)
      (referenced? memo' (child.renumber number) b target) := by
  unfold referenced?
  rw [(hE a b hab).link, Plan.info_renumber]
  cases b.link target with
  | single id =>
    have hfiled := h.entity child.info.id hnode id
    dsimp only
    generalize memo.entity? child.info.id id = found at hfiled ⊢
    generalize memo'.entity? (number child.info.id) id = found' at hfiled ⊢
    cases hfiled with
    | none => exact .none
    | some halike => exact halike
  | absent | many | invalid => exact .none

theorem members?_alike (hE : ∀ a b, E a b → a.Alike b) (h : Memo.Shows number nodes E memo memo')
    {child : Plan} (hnode : nodes child.info.id) {a b : Entity} (hab : E a b) :
    Option.Rel (List.Forall₂ E) (members? memo child a)
      (members? memo' (child.renumber number) b) := by
  unfold members?
  rw [(hE a b hab).id, Plan.info_renumber]
  exact h.page child.info.id hnode b.id

mutual

/-- What is written of related documents is related. -/
theorem write_alike (renders : Renders E V F) (h : Memo.Shows number nodes E memo memo') :
    ∀ (selector : Selector) (plan : Plan), (∀ n ∈ plan.idsBelow, nodes n) →
      ∀ (a b : Entity), E a b → ∀ (start : String) (f g : Fields), F f g →
        F (write memo selector plan a start f)
          (write memo' selector (plan.renumber number) b start g)
  | .wildcard, _, _, a, b, hab, start, f, g, hfg => renders.all a b hab f g hfg start
  | .field name, plan, _, a, b, hab, start, f, g, hfg => by
    rw [write, write, renders.alike a b hab name]
    cases b.get? name with
    | some value => exact renders.set f g hfg _ value value (renders.refl value)
    | none => exact hfg
  | .list items, plan, hnodes, a, b, hab, start, f, g, hfg => by
    rw [write, write]
    exact writeItems_alike renders h items plan hnodes a b hab start f g hfg
  | .one target sub, plan, hnodes, a, b, hab, start, f, g, hfg => by
    rw [write, write, Plan.ones_renumber, Plan.find_renumberAll]
    cases hchild : plan.ones.lookup target with
    | none => exact hfg
    | some child =>
      have hbelow : ∀ n ∈ child.ids, nodes n := fun n hn =>
        hnodes n (List.mem_append_left _ (Plan.ids_subset_of_lookup hchild hn))
      rw [Plan.ids_eq, List.forall_mem_cons] at hbelow
      have hfound := referenced?_alike renders.alike h hbelow.1 hab target
      rw [Option.map_some]
      dsimp only
      generalize referenced? memo child a target = found at hfound ⊢
      generalize referenced? memo' (child.renumber number) b target = found' at hfound ⊢
      cases hfound with
      | none => exact hfg
      | some halike => exact writeOne_alike renders h sub child hbelow.2 _ _ halike _ f g hfg
  | .many target sub _, plan, hnodes, a, b, hab, start, f, g, hfg => by
    rw [write, write, Plan.manys_renumber, Plan.find_renumberAll]
    cases hchild : plan.manys.lookup target with
    | none => exact hfg
    | some child =>
      have hbelow : ∀ n ∈ child.ids, nodes n := fun n hn =>
        hnodes n (List.mem_append_right _ (Plan.ids_subset_of_lookup hchild hn))
      rw [Plan.ids_eq, List.forall_mem_cons] at hbelow
      have hmembers := members?_alike renders.alike h hbelow.1 hab
      rw [Option.map_some]
      dsimp only
      generalize members? memo child a = members at hmembers ⊢
      generalize members? memo' (child.renumber number) b = members' at hmembers ⊢
      cases hmembers with
      | none => exact hfg
      | some halike => exact writeMany_alike renders h sub child hbelow.2 _ _ halike _ f g hfg

theorem writeItems_alike (renders : Renders E V F) (h : Memo.Shows number nodes E memo memo') :
    ∀ (items : List Selector) (plan : Plan), (∀ n ∈ plan.idsBelow, nodes n) →
      ∀ (a b : Entity), E a b → ∀ (start : String) (f g : Fields), F f g →
        F (writeItems memo items plan a start f)
          (writeItems memo' items (plan.renumber number) b start g)
  | [], _, _, _, _, _, _, _, _, hfg => hfg
  | item :: items, plan, hnodes, a, b, hab, start, f, g, hfg => by
    rw [writeItems, writeItems]
    exact writeItems_alike renders h items plan hnodes a b hab start _ _
      (write_alike renders h item plan hnodes a b hab start f g hfg)

/-- Below a single reference. -/
theorem writeOne_alike (renders : Renders E V F) (h : Memo.Shows number nodes E memo memo') :
    ∀ (sub : Option Selector) (child : Plan), (∀ n ∈ child.idsBelow, nodes n) →
      ∀ (a b : Entity), E a b → ∀ (key : String) (f g : Fields), F f g →
        F (writeOne memo sub child a key f)
          (writeOne memo' sub (child.renumber number) b key g)
  | none, _, _, a, b, hab, key, f, g, hfg => renders.set f g hfg key _ _ (renders.whole a b hab)
  | some .wildcard, _, _, a, b, hab, key, f, g, hfg =>
    renders.set f g hfg key _ _ (renders.whole a b hab)
  | some (.list items), child, hnodes, a, b, hab, key, f, g, hfg => by
    rw [writeOne, writeOne]
    exact renders.set f g hfg key _ _ (renders.object _ _
      (writeItems_alike renders h items child hnodes a b hab "" _ _ renders.empty))
  | some (.field name), child, hnodes, a, b, hab, key, f, g, hfg =>
    write_alike renders h (.field name) child hnodes a b hab _ f g hfg
  | some (.one target sub), child, hnodes, a, b, hab, key, f, g, hfg =>
    write_alike renders h (.one target sub) child hnodes a b hab _ f g hfg
  | some (.many target sub scope), child, hnodes, a, b, hab, key, f, g, hfg =>
    write_alike renders h (.many target sub scope) child hnodes a b hab _ f g hfg

/-- Below a many reference. -/
theorem writeMany_alike (renders : Renders E V F) (h : Memo.Shows number nodes E memo memo') :
    ∀ (sub : Option Selector) (child : Plan), (∀ n ∈ child.idsBelow, nodes n) →
      ∀ (as bs : List Entity), List.Forall₂ E as bs → ∀ (key : String) (f g : Fields), F f g →
        F (writeMany memo sub child as key f)
          (writeMany memo' sub (child.renumber number) bs key g)
  | none, _, _, as, bs, hab, key, f, g, hfg => by
    refine renders.set f g hfg key _ _ (renders.array _ _ ?_)
    rw [List.forall₂_map_left_iff, List.forall₂_map_right_iff]
    exact hab.imp renders.whole
  | some .wildcard, _, _, as, bs, hab, key, f, g, hfg => by
    refine renders.set f g hfg key _ _ (renders.array _ _ ?_)
    rw [List.forall₂_map_left_iff, List.forall₂_map_right_iff]
    exact hab.imp renders.whole
  | some (.list items), child, hnodes, as, bs, hab, key, f, g, hfg => by
    rw [writeMany, writeMany]
    refine renders.set f g hfg key _ _ (renders.array _ _ ?_)
    rw [List.forall₂_map_left_iff, List.forall₂_map_right_iff]
    exact hab.imp fun a b hab => renders.object _ _
      (writeItems_alike renders h items child hnodes a b hab "" _ _ renders.empty)
  | some (.field name), _, _, as, bs, hab, key, f, g, hfg => by
    rw [writeMany, writeMany, collect_congr renders.alike name hab]
    exact renders.set f g hfg _ _ _ (renders.refl _)
  | some (.one target sub), child, hnodes, as, bs, hab, key, f, g, hfg => by
    rw [writeMany, writeMany]
    · exact gathered_alike renders rfl (fun a b hab => write_alike renders h (.one target sub) child
        hnodes a b hab (key ++ ".") _ _ renders.empty) hab hfg
    all_goals simp
  | some (.many target sub scope), child, hnodes, as, bs, hab, key, f, g, hfg => by
    rw [writeMany, writeMany]
    · exact gathered_alike renders rfl (fun a b hab => write_alike renders h
        (.many target sub scope) child hnodes a b hab (key ++ ".") _ _ renders.empty) hab hfg
    all_goals simp

end

/-- The answers for related documents are related. -/
theorem ofEntity_alike (renders : Renders E V F) (h : Memo.Shows number nodes E memo memo')
    {plan : Plan} (hnodes : ∀ n ∈ plan.idsBelow, nodes n) (select : Option Selector)
    {a b : Entity} (hab : E a b) :
    V (ofEntity memo plan select a) (ofEntity memo' (plan.renumber number) select b) := by
  cases select with
  | none => exact renders.whole a b hab
  | some selector =>
    exact renders.object _ _
      (write_alike renders h selector plan hnodes a b hab "" _ _ renders.empty)

/-- Everything is written equal of equal entities. -/
theorem renders_eq : Renders Eq Eq Eq where
  alike := .of_eq
  whole _ _ := congrArg Entity.toValue
  refl _ := rfl
  isNull _ _ := congrArg Value.isNull
  array vs ws h := by
    rw [List.forall₂_eq_eq_eq] at h
    rw [h]
  object _ _ := congrArg Value.ofFields
  empty := rfl
  set := by
    rintro f _ rfl key v _ rfl
    rfl
  all := by
    rintro a _ rfl f _ rfl start
    rfl
  entries := by
    rintro f _ rfl - -
    exact List.forall₂_same.mpr fun x _ => ⟨rfl, rfl⟩

end Answer

end LinkedDocs
