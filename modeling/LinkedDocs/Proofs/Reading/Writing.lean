import LinkedDocs.Proofs.Pass.Memo
import LinkedDocs.Proofs.Plan.Serving
import LinkedDocs.Proofs.Reading.Plain

/-!
# Writing from a memo

A pass leaves a memo, and the answer is written from it with entities that hold only the fields of
their node. Where nothing is refused, this comes to what the plain reading writes from whole
documents:

> `write_eq`: for a selector that the plan serves and a document that the memo covers, the plain
> reading writes the same fields in the same order.

The induction is on the selector; the plan follows along its edges. That what is filed is looked up
by number and id is no matter any more, as the memo is faithful.
-/

namespace LinkedDocs

/-- A list of optional results is there if each of them is. -/
theorem mapM_eq_some_iff {α β : Type} {f : α → Option β} {items : List α} {results : List β} :
    items.mapM f = some results ↔ items.map f = results.map some := by
  induction items generalizing results with
  | nil => cases results <;> simp
  | cons item rest ih =>
    cases results with
    | nil => simp [Option.bind_eq_some_iff]
    | cons result results =>
      simp only [List.mapM_cons, Option.bind_eq_bind, Option.bind_eq_some_iff, Option.pure_def,
        Option.some.injEq, List.cons.injEq, List.map_cons]
      constructor
      · rintro ⟨first, hfirst, others, hothers, rfl, rfl⟩
        exact ⟨hfirst, ih.mp hothers⟩
      · rintro ⟨hfirst, hothers⟩
        exact ⟨result, hfirst, results, ih.mpr hothers, rfl, rfl⟩

theorem exists_of_mapM {α β : Type} {f : α → Option β} {items : List α} {results : List β}
    (h : items.mapM f = some results) {item : α} (hitem : item ∈ items) :
    ∃ result, f item = some result := by
  have hmem : f item ∈ results.map some := mapM_eq_some_iff.mp h ▸ List.mem_map_of_mem hitem
  obtain ⟨result, -, hresult⟩ := List.mem_map.mp hmem
  exact ⟨result, hresult.symm⟩

/-- Alike scopes pick the same page. -/
theorem Scope.Alike.page {a b : Scope} (h : a.Alike b) (m : Memory) (p : Permission)
    (collection : String) (link : Filter) :
    m.page p collection link a = m.page p collection link b := by
  have hholds : Filter.holds (link ++ a.filter) = Filter.holds (link ++ b.filter) :=
    funext (h.holds link)
  rw [Memory.page, Memory.page, h.window, h.order, hholds]

namespace Plain

variable {m : Memory} {p : Permission}

theorem document_eq (hm : m.Identified) (on : m.offline = false) (collection id : String) :
    document m p collection id
      = if p.check collection id then some (m.entity? collection id) else none := by
  rw [document, Memory.reply_get_entity hm on]
  cases hfound : m.entity? collection id <;> simp [Except.toOption]

theorem page_eq (hm : m.Identified) (on : m.offline = false) (collection : String) (link : Filter)
    (scope : Scope) :
    page m p collection link scope
      = if p.refuses collection (link ++ scope.filter) then none
        else some (m.page p collection link scope) := by
  have hall : m.reply (.find collection [] .all) = .ok (m.entities collection) := by
    rw [Memory.reply_find hm on]
    have hholds : Filter.holds [] = fun _ => true := by
      funext e
      rfl
    simp [hholds]
  rw [page, hall]
  rfl

end Plain

namespace Plan

variable (m : Memory) (p : Permission) (memo : Memo)

/-- A document at a node below which nothing is refused, covered by the memo. -/
structure Ready (plan : Plan) (e : Entity) : Prop where
  mem : e ∈ m.entities plan.info.collection
  resolves : plan.Resolves m p e
  covers : plan.Covers m p memo e

variable {m p memo} {plan child : Plan} {e : Entity} {target : String}

/-- What a single reference of a ready document leads to is filed, and ready. -/
theorem Ready.one {id : String} (h : Ready m p memo plan e)
    (hchild : plan.child? (.one target) = some child) (hlink : e.link target = .single id) :
    p.check child.info.collection id = true ∧
      memo.entity? child.info.id id = some (child.fetched m id) ∧
        ∀ found, m.entity? child.info.collection id = some found → Ready m p memo child found := by
  obtain ⟨hcheck, hresolves⟩ := h.resolves.one hchild hlink
  obtain ⟨hfiled, hcovers⟩ := h.covers.one hchild hlink
  exact ⟨hcheck, hfiled, fun found hfound =>
    ⟨Memory.mem_entities_of_entity? hfound, hresolves found hfound, hcovers found hfound⟩⟩

/-- What a many reference of a ready document leads to is filed, and ready. -/
theorem Ready.many {link : Filter} (h : Ready m p memo plan e)
    (hchild : plan.child? (.many target) = some child)
    (hlink : Pass.linkFilter? plan.info.collection e target = some link) :
    p.refuses child.info.collection (link ++ child.info.scope.filter) = false ∧
      memo.page? child.info.id (some e.id) = some (child.fetchedPage m p link) ∧
        ∀ member ∈ m.page p child.info.collection link child.info.scope,
          Ready m p memo child member := by
  obtain ⟨hgranted, hresolves⟩ := h.resolves.many hchild hlink
  obtain ⟨hfiled, hcovers⟩ := h.covers.many hchild hlink
  exact ⟨hgranted, hfiled, fun member hmember =>
    ⟨Memory.mem_entities_of_page hmember, hresolves member hmember, hcovers member hmember⟩⟩

end Plan

namespace Answer

/-- Collecting the values of a field looks at that field only. -/
theorem collect_restrict {projection : Projection} {name : String}
    (h : projection.includes name = true) (members : List Entity) :
    collect name (members.map (·.restrict projection)) = collect name members := by
  unfold collect
  rw [List.filterMap_map]
  congr 2
  funext e
  exact Entity.get?_restrict_of_includes h e

variable {m : Memory} {p : Permission} {layout : Plan.Layout} {memo : Memo}

open Plan (Serves ServesSub ServesItems Ready Placed)

section Edges

variable {plan child : Plan} {e : Entity} {target : String}

theorem link_restrict (hchild : plan.child? (.one target) = some child) (e : Entity) :
    (e.restrict plan.projection).link target = e.link target :=
  Entity.link_restrict_of_includes (Plan.projection_includes_target hchild) e

/-- The document that a single reference has led to, as the memo has it. -/
theorem referenced?_of_ready {id : String} (h : Ready m p memo plan e)
    (hchild : plan.child? (.one target) = some child) (hlink : e.link target = .single id) :
    referenced? memo child (e.restrict plan.projection) target = child.fetched m id := by
  rw [referenced?, link_restrict hchild, hlink]
  dsimp only
  rw [(h.one hchild hlink).2.1]
  rfl

theorem referenced?_of_no_link (hchild : plan.child? (.one target) = some child)
    (hlink : ∀ id, e.link target ≠ .single id) :
    referenced? memo child (e.restrict plan.projection) target = none := by
  rw [referenced?, link_restrict hchild]
  split
  · next id heq => exact absurd heq (hlink id)
  · rfl

/-- A field that is no link has led to no page. -/
theorem members?_of_no_link (h : Memo.Faithful m p layout memo) {referrer : Option String}
    (hplaced : Placed layout referrer plan) (hregular : plan.Regular)
    (he : e ∈ m.entities plan.info.collection) (hchild : plan.child? (.many target) = some child)
    (hlink : Pass.linkFilter? plan.info.collection e target = none) :
    members? memo child (e.restrict plan.projection) = none := by
  rw [members?, Entity.id_restrict]
  cases hfiled : memo.page? child.info.id (some e.id) with
  | none => rfl
  | some page =>
    obtain ⟨link, hlink', -⟩ := h.page (hplaced.many hchild).root rfl he hfiled
    rw [show child.info.collection = target from (hregular.child hchild).1, hlink] at hlink'
    cases hlink'

end Edges

mutual

/-- Where nothing is refused, the plain reading writes what is written from the memo. -/
theorem write_eq (hm : m.Identified) (on : m.offline = false) (h : Memo.Faithful m p layout memo) :
    ∀ (selector : Selector) {plan : Plan} {referrer : Option String},
      Placed layout referrer plan → plan.Regular → Serves selector plan →
      ∀ {e : Entity}, Ready m p memo plan e → ∀ (start : String) (out : Fields),
        Plain.write m p selector plan.info.collection e start out
          = some (write memo selector plan (e.restrict plan.projection) start out)
  | .wildcard, plan, _, _, _, hserves, e, _, start, out => by
    rw [Plain.write, write, Plan.projection_eq_all hserves, Entity.restrict_all]
  | .field name, plan, _, _, _, hserves, e, _, start, out => by
    rw [Plain.write, write,
      Entity.get?_restrict_of_includes (Plan.projection_includes_field hserves)]
    cases e.get? name <;> rfl
  | .list items, plan, _, hplaced, hregular, hserves, e, hready, start, out => by
    rw [Plain.write, write]
    exact writeItems_eq hm on h items hplaced hregular hserves hready start out
  | .one target sub, plan, _, hplaced, hregular, hserves, e, hready, start, out => by
    obtain ⟨child, hchild, hsub⟩ := hserves
    have hfind : plan.ones.lookup target = some child := hchild
    obtain ⟨hcollection, hregular'⟩ : child.info.collection = target ∧ child.Regular :=
      hregular.child hchild
    rw [Plain.write, write, hfind]
    dsimp only
    cases hlink : e.link target with
    | single id =>
      -- the plain reading loads the document that is filed under the id
      obtain ⟨hcheck, -, hnext⟩ := hready.one hchild hlink
      have hbelow := fun found (hfound : m.entity? child.info.collection id = some found) =>
        writeOne_eq hm on h sub (hplaced.one hchild) hregular' hsub (hnext found hfound)
          (start ++ Selector.sign false target) out
      rw [hcollection] at hbelow hcheck
      dsimp only
      rw [Plain.document_eq hm on, if_pos hcheck, referenced?_of_ready hready hchild hlink,
        Plan.fetched, hcollection]
      cases hfound : m.entity? target id with
      | none => rfl
      | some found => exact hbelow found hfound
    | absent | many | invalid =>
      rw [referenced?_of_no_link hchild (by simp [hlink])]
  | .many target sub scope, plan, _, hplaced, hregular, hserves, e, hready, start, out => by
    obtain ⟨child, hchild, halike, hsub⟩ := hserves
    have hfind : plan.manys.lookup target = some child := hchild
    obtain ⟨hcollection, hregular'⟩ : child.info.collection = target ∧ child.Regular :=
      hregular.child hchild
    rw [Plain.write, write, hfind]
    dsimp only
    cases hlink : Pass.linkFilter? plan.info.collection e target with
    | none => rw [members?_of_no_link h hplaced hregular hready.mem hchild hlink]
    | some link =>
      -- the plain reading searches by its own scope, which picks the page of the node
      obtain ⟨hgranted, hfiled, hnext⟩ := hready.many hchild hlink
      have hbelow := writeMany_eq hm on h sub (hplaced.many hchild) hregular' hsub
        _ hnext (start ++ Selector.sign true target) out
      have hmembers : members? memo child (e.restrict plan.projection)
          = some (child.fetchedPage m p link) := hfiled
      have hpage : Plain.page m p child.info.collection link scope
          = some (m.page p child.info.collection link child.info.scope) := by
        rw [Plain.page_eq hm on, ← halike.refuses, hgranted, halike.page]
        rfl
      rw [hmembers, Plan.fetchedPage]
      rw [hcollection] at hbelow hpage ⊢
      dsimp only
      rw [hpage]
      exact hbelow

theorem writeItems_eq (hm : m.Identified) (on : m.offline = false)
    (h : Memo.Faithful m p layout memo) :
    ∀ (items : List Selector) {plan : Plan} {referrer : Option String},
      Placed layout referrer plan → plan.Regular → ServesItems items plan →
      ∀ {e : Entity}, Ready m p memo plan e → ∀ (start : String) (out : Fields),
        Plain.writeItems m p items plan.info.collection e start out
          = some (writeItems memo items plan (e.restrict plan.projection) start out)
  | [], _, _, _, _, _, _, _, _, _ => rfl
  | item :: items, plan, _, hplaced, hregular, hserves, e, hready, start, out => by
    rw [Plain.writeItems, writeItems, write_eq hm on h item hplaced hregular hserves.1 hready]
    exact writeItems_eq hm on h items hplaced hregular hserves.2 hready start _

/-- Below a single reference. -/
theorem writeOne_eq (hm : m.Identified) (on : m.offline = false)
    (h : Memo.Faithful m p layout memo) :
    ∀ (sub : Option Selector) {child : Plan} {referrer : Option String},
      Placed layout referrer child → child.Regular → ServesSub sub child →
      ∀ {found : Entity}, Ready m p memo child found → ∀ (key : String) (out : Fields),
        Plain.writeOne m p sub child.info.collection found key out
          = some (writeOne memo sub child (found.restrict child.projection) key out)
  | none, child, _, _, _, hserves, found, _, key, out => by
    rw [Plain.writeOne, writeOne, Plan.projection_eq_all hserves, Entity.restrict_all]
  | some sub, child, _, hplaced, hregular, hserves, found, hready, key, out => by
    have hwrite := write_eq hm on h sub hplaced hregular hserves hready
    cases sub with
    | wildcard => rw [Plain.writeOne, writeOne, Plan.projection_eq_all hserves, Entity.restrict_all]
    | list items =>
      have hitems := hwrite "" .empty
      rw [Plain.write, write] at hitems
      rw [Plain.writeOne, writeOne, hitems]
      rfl
    | field | one | many => exact hwrite (key ++ ".") out

/-- Below a many reference. -/
theorem writeMany_eq (hm : m.Identified) (on : m.offline = false)
    (h : Memo.Faithful m p layout memo) :
    ∀ (sub : Option Selector) {child : Plan} {referrer : Option String},
      Placed layout referrer child → child.Regular → ServesSub sub child →
      ∀ (members : List Entity), (∀ member ∈ members, Ready m p memo child member) →
      ∀ (key : String) (out : Fields),
        Plain.writeMany m p sub child.info.collection members key out
          = some (writeMany memo sub child (members.map (·.restrict child.projection)) key out)
  | none, child, _, _, _, hserves, members, _, key, out => by
    rw [Plain.writeMany, writeMany, Plan.projection_eq_all hserves]
    simp
  | some sub, child, _, hplaced, hregular, hserves, members, hready, key, out => by
    have hwrite := fun member hmember =>
      write_eq hm on h sub hplaced hregular hserves (hready member hmember)
    have hall : ∀ start, members.mapM (fun member =>
          Plain.write m p sub child.info.collection member start .empty)
        = some (members.map fun member =>
          write memo sub child (member.restrict child.projection) start .empty) := by
      intro start
      rw [mapM_eq_some_iff, List.map_map]
      exact List.map_congr_left fun member hmember => hwrite member hmember start .empty
    cases sub with
    | wildcard =>
      rw [Plain.writeMany, writeMany, Plan.projection_eq_all hserves]
      simp
    | field name =>
      rw [Plain.writeMany, writeMany, collect_restrict (Plan.projection_includes_field hserves)]
    | list items =>
      have hobjects := hall ""
      simp only [Plain.write, write] at hobjects
      rw [Plain.writeMany, writeMany, hobjects]
      simp [Function.comp_def]
    | one | many =>
      simp only [Plain.writeMany, writeMany, hall, List.map_map, Option.bind_eq_bind,
        Option.bind_some, Function.comp_def]
      generalize gather _ = gathered
      cases gathered <;> rfl

end

end Answer

end LinkedDocs
