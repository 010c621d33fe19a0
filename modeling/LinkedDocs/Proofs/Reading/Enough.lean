import LinkedDocs.Proofs.Pass.Lockstep
import LinkedDocs.Proofs.Reading.Pages

/-!
# What is asked for is enough

A query asks for the projection of each node and writes its answer from what it is shown. Which
fields a store shows besides is not to be seen in the answer:

> `run_eq_of_showsEnough`: a query ends the same with every server that shows enough of what is in a
> store, be it more at one call and less at another.

The pass goes in step with the pass that is shown whole documents (`Pass.Lockstep`), so what is left
is the writing. Fields are written from the fields of the node, references from its links, and whole
documents where the node reads whole documents, so that there is nothing more to be shown
(`Answer.write_part`).
-/

namespace LinkedDocs

open Entity (Part)
open Plan (Placed Serves ServesSub ServesItems)
open Selector (subScopedBy)

namespace Answer

variable {layout : Plan.Layout} {memo memo' : Memo}

/-- Where whole documents are asked for, they are shown. -/
theorem eq_of_parts_all {as bs : List Entity} (h : List.Forall₂ (Part .all) as bs) : as = bs := by
  rw [← List.forall₂_eq_eq_eq]
  exact h.imp fun _ _ hpart => hpart.eq_of_all.symm

/-- A single reference leads to a part of what it leads to. -/
theorem referenced?_part (h : Memo.Parts layout.asked memo memo') {plan child : Plan}
    {referrer : Option String} (hplaced : Placed layout referrer child) {target : String}
    (hchild : plan.child? (.one target) = some child) {a b : Entity}
    (hpart : Part plan.projection a b) :
    Option.Rel (Part child.projection) (referenced? memo child a target)
      (referenced? memo' child b target) := by
  have hlink : b.link target = a.link target :=
    hpart.link (Plan.projection_includes_target hchild)
  rw [referenced?, referenced?, hlink]
  cases a.link target with
  | single id =>
    have hfiled := h.entity child.info.id id
    rw [hplaced.asked] at hfiled
    dsimp only
    generalize memo.entity? child.info.id id = found at hfiled ⊢
    generalize memo'.entity? child.info.id id = found' at hfiled ⊢
    cases hfiled with
    | none => exact .none
    | some hfound => exact hfound
  | absent | many | invalid => exact .none

/-- A many reference leads to parts of what it leads to. -/
theorem members?_part (h : Memo.Parts layout.asked memo memo') {child : Plan}
    {referrer : Option String} (hplaced : Placed layout referrer child) {asked : Projection}
    {a b : Entity} (hpart : Part asked a b) :
    Option.Rel (List.Forall₂ (Part child.projection)) (members? memo child a)
      (members? memo' child b) := by
  have hfiled := h.page child.info.id (some a.id)
  rw [hplaced.asked] at hfiled
  unfold members?
  rw [hpart.id]
  exact hfiled

mutual

/-- Of a part is written what is written of the whole. -/
theorem write_part (h : Memo.Parts layout.asked memo memo') : ∀ (selector : Selector) {plan : Plan}
    {referrer : Option String}, Placed layout referrer plan → Serves selector plan →
      ∀ {a b : Entity}, Part plan.projection a b → ∀ (start : String) (out : Fields),
        write memo selector plan a start out = write memo' selector plan b start out
  | .wildcard, plan, _, _, hserves, a, b, hpart, start, out => by
    rw [Plan.projection_eq_all hserves] at hpart
    rw [hpart.eq_of_all, write, write]
  | .field name, plan, _, _, hserves, a, b, hpart, start, out => by
    rw [write, write, hpart.get? (Plan.projection_includes_field hserves)]
  | .list items, plan, _, hplaced, hserves, a, b, hpart, start, out => by
    rw [write, write]
    exact writeItems_part h items hplaced hserves hpart start out
  | .one target sub, plan, _, hplaced, ⟨child, hchild, hsub⟩, a, b, hpart, start, out => by
    have hfound := referenced?_part h (hplaced.one hchild) hchild hpart
    rw [write, write, show plan.ones.lookup target = some child from hchild]
    dsimp only
    generalize referenced? memo child a target = found at hfound ⊢
    generalize referenced? memo' child b target = found' at hfound ⊢
    cases hfound with
    | none => rfl
    | some hpart' => exact writeOne_part h sub (hplaced.one hchild) hsub hpart' _ out
  | .many target sub _, plan, _, hplaced, ⟨child, hchild, _, hsub⟩, a, b, hpart, start, out => by
    have hmembers := members?_part h (hplaced.many hchild) hpart
    rw [write, write, show plan.manys.lookup target = some child from hchild]
    dsimp only
    generalize members? memo child a = members at hmembers ⊢
    generalize members? memo' child b = members' at hmembers ⊢
    cases hmembers with
    | none => rfl
    | some hparts => exact writeMany_part h sub (hplaced.many hchild) hsub hparts _ out

theorem writeItems_part (h : Memo.Parts layout.asked memo memo') : ∀ (items : List Selector)
    {plan : Plan} {referrer : Option String}, Placed layout referrer plan →
      ServesItems items plan → ∀ {a b : Entity}, Part plan.projection a b →
        ∀ (start : String) (out : Fields),
          writeItems memo items plan a start out = writeItems memo' items plan b start out
  | [], _, _, _, _, _, _, _, _, _ => rfl
  | item :: items, plan, _, hplaced, ⟨hitem, hitems⟩, a, b, hpart, start, out => by
    rw [writeItems, writeItems, write_part h item hplaced hitem hpart]
    exact writeItems_part h items hplaced hitems hpart start _

/-- Below a single reference. -/
theorem writeOne_part (h : Memo.Parts layout.asked memo memo') : ∀ (sub : Option Selector)
    {child : Plan} {referrer : Option String}, Placed layout referrer child →
      ServesSub sub child → ∀ {a b : Entity}, Part child.projection a b →
        ∀ (key : String) (out : Fields),
          writeOne memo sub child a key out = writeOne memo' sub child b key out
  | none, child, _, _, hserves, a, b, hpart, key, out => by
    rw [Plan.projection_eq_all hserves] at hpart
    rw [hpart.eq_of_all, writeOne, writeOne]
  | some sub, child, _, hplaced, hserves, a, b, hpart, key, out => by
    have hwrite := write_part h sub hplaced hserves hpart
    cases sub with
    | wildcard =>
      rw [Plan.projection_eq_all hserves] at hpart
      rw [hpart.eq_of_all, writeOne, writeOne]
    | list items =>
      have hitems := hwrite "" .empty
      rw [write, write] at hitems
      rw [writeOne, writeOne, hitems]
    | field | one | many => exact hwrite (key ++ ".") out

/-- Below a many reference. -/
theorem writeMany_part (h : Memo.Parts layout.asked memo memo') : ∀ (sub : Option Selector)
    {child : Plan} {referrer : Option String}, Placed layout referrer child →
      ServesSub sub child → ∀ {as bs : List Entity}, List.Forall₂ (Part child.projection) as bs →
        ∀ (key : String) (out : Fields),
          writeMany memo sub child as key out = writeMany memo' sub child bs key out
  | none, child, _, _, hserves, as, bs, hparts, key, out => by
    rw [Plan.projection_eq_all hserves] at hparts
    rw [eq_of_parts_all hparts, writeMany, writeMany]
  | some sub, child, _, hplaced, hserves, as, bs, hparts, key, out => by
    have hwrite : ∀ start, as.map (fun member => write memo sub child member start .empty)
        = bs.map fun member => write memo' sub child member start .empty := fun start =>
      forall₂_map_eq (fun a b hpart => write_part h sub hplaced hserves hpart start .empty) hparts
    cases sub with
    | wildcard =>
      rw [Plan.projection_eq_all hserves] at hparts
      rw [eq_of_parts_all hparts, writeMany, writeMany]
    | field name =>
      have hvalues : collect name as = collect name bs := by
        rw [collect, collect, forall₂_filterMap_eq (fun a b hpart =>
          (hpart.get? (Plan.projection_includes_field hserves)).symm) hparts]
      rw [writeMany, writeMany, hvalues]
    | list items =>
      have hitems := congrArg (List.map Value.ofFields) (hwrite "")
      simp only [List.map_map, Function.comp_def, write] at hitems
      rw [writeMany, writeMany, hitems]
    | one | many => simp only [writeMany, hwrite]

end

/-- The answer for a part of a document is the answer for the document. -/
theorem ofEntity_part (h : Memo.Parts layout.asked memo memo') {plan : Plan}
    {referrer : Option String} (hplaced : Placed layout referrer plan) {select : Option Selector}
    (hserves : ServesSub (subScopedBy select (some plan)) plan) {a b : Entity}
    (hpart : Part plan.projection a b) :
    ofEntity memo plan select a = ofEntity memo' plan select b := by
  rw [← ofEntity_scopedBy memo plan select a, ← ofEntity_scopedBy memo' plan select b]
  generalize subScopedBy select (some plan) = served at hserves ⊢
  cases served with
  | none =>
    rw [Plan.projection_eq_all hserves] at hpart
    rw [hpart.eq_of_all]
    rfl
  | some selector =>
    exact congrArg Value.ofFields (write_part h selector hplaced hserves hpart "" .empty)

end Answer

namespace Query

open Pass (Lockstep lockstep_one lockstep_many)

variable (m : Memory) (p : Permission)

/-- A query whose pass goes in step, and whose answers are written alike, ends as with whole
documents. -/
theorem ensures_withPlan {α β : Type} {plan : Plan} {R : α → α → Prop}
    {asked : Nat → Projection} (step : Plan → Pass α) (write : Plan → Memo → α → β)
    (hstep : Lockstep m asked R (step plan) (step plan))
    (hwrite : ∀ {memo memo' a b}, Memo.Parts asked memo memo' → R a b →
      write plan memo a = write plan memo' b) :
    (withPlan (.ok plan) fun plan => do
      let (result, memo) ← (step plan).start .empty
      return result.map (write plan memo)).Ensures m.Enough fun result =>
        result = (Pass.eval m.whole (step plan) .empty).1.map
          (write plan (Pass.eval m.whole (step plan) .empty).2) := by
  refine Dialogue.Ensures.bind (hstep .empty .empty Memo.parts_empty) fun ended hended => ?_
  obtain ⟨result, memo⟩ := ended
  obtain ⟨hends, hparts⟩ := hended
  exact (EndsAlike.eq_iff.mp (hends.map fun a b hab => hwrite hparts hab)).symm

/-- A plan that is built serves what it is built for, in its own scopes. -/
theorem exists_layout_of_build {collection : String} {select : Option Selector} {scope : Scope}
    {plan : Plan} (h : Plan.build collection select scope = .ok plan) :
    ∃ layout, Placed layout none plan ∧ ServesSub (subScopedBy select (some plan)) plan := by
  obtain ⟨next, hload⟩ := Plan.of_build h
  have hserves := Plan.servesSub_scopedBy hload (.refl plan)
  obtain ⟨layout, built⟩ := Plan.exists_built_of_serves h hserves
  exact ⟨layout, built.placed, hserves⟩

/-- Reading one document ends as with whole documents, whatever is shown, if it is enough. -/
theorem ensures_one (collection id : String) (request : Request) :
    (one p collection id request).Ensures m.Enough fun result =>
      result = (one p collection id request).eval m.whole := by
  cases hplan : Plan.build collection request.select .unrestricted with
  | error error =>
    rw [one, hplan]
    exact rfl
  | ok plan =>
    obtain ⟨layout, hplaced, hserves⟩ := exists_layout_of_build hplan
    rw [eval_one hplan, one, hplan]
    refine ensures_withPlan m (fun plan => Pass.one p plan id)
      (fun plan memo => Option.map (Answer.ofEntity memo plan request.select))
      (lockstep_one p hplaced id) fun hparts hfound => ?_
    cases hfound with
    | none => rfl
    | some hpart => exact congrArg some (Answer.ofEntity_part hparts hplaced hserves hpart)

/-- Reading a page ends as with whole documents, whatever is shown, if it is enough. -/
theorem ensures_many (collection : String) (request : Request) :
    (many p collection request).Ensures m.Enough fun result =>
      result = (many p collection request).eval m.whole := by
  cases hplan : Plan.build collection request.select request.scope with
  | error error =>
    rw [many, hplan]
    exact rfl
  | ok plan =>
    obtain ⟨layout, hplaced, hserves⟩ := exists_layout_of_build hplan
    rw [eval_many hplan, many, hplan]
    refine ensures_withPlan m (fun plan => Pass.many p plan none [])
      (fun plan memo => List.map (Answer.ofEntity memo plan request.select))
      (lockstep_many p hplaced none []) fun hparts hpage => ?_
    exact forall₂_map_eq (fun a b hpart => Answer.ofEntity_part hparts hplaced hserves hpart) hpage

variable {m}

/-- **What is asked for is enough.** With a server that shows at least the fields that it is asked
for of what is in a store, and as many others as it likes at each call, a query ends as with the
store itself, which shows no others. -/
theorem run_eq_of_showsEnough {σ : Type} {server : Server σ} {s : σ}
    (h : server.ShowsEnough m s) (collection : String) (request : Request) :
    (∀ id, ((one p collection id request).run server s).1
        = ((one p collection id request).run Memory.answer m).1) ∧
      ((many p collection request).run server s).1
        = ((many p collection request).run Memory.answer m).1 := by
  have hstore := m.showsEnough_answer
  constructor
  · intro id
    have hreads := reads_one p collection id request
    have hends := ensures_one m p collection id request
    exact (h.run hreads hends).trans (hstore.run hreads hends).symm
  · have hreads := reads_many p collection request
    have hends := ensures_many m p collection request
    exact (h.run hreads hends).trans (hstore.run hreads hends).symm

/-- A machine with a disk. -/
def machineWithDisk : Memory :=
  ((Memory.empty.seed "vm"
    [.object [("id", .string "1"), ("disk", .array [.string "a"]), ("cores", .ofInt 4)]]).2.seed
    "disk" [.object [("id", .string "a"), ("label", .string "system"), ("size", .ofInt 1)]]).2

/-- The labels of the disks of a machine, the largest disk first, from a server that shows whole
documents at every second call. -/
theorem run_eq_of_showsEnough_labels :
    let choose := fun n => if n % 2 = 0 then Projection.all else .fields []
    let request : Request := ⟨some (.many "disk" (some (.field "label"))
      { Scope.unrestricted with order := [⟨"size", true⟩] }), .unrestricted⟩
    (machineWithDisk.generous choose).ShowsEnough machineWithDisk 0 ∧
      ((one .unrestricted "vm" "1" request).run (machineWithDisk.generous choose) 0).1
        = .ok (some (.object [("@[disk].label", .array [.string "system"])])) := by
  intro choose request
  have hshows := machineWithDisk.showsEnough_generous choose 0
  refine ⟨hshows, ?_⟩
  rw [(run_eq_of_showsEnough .unrestricted hshows "vm" request).1 "1"]
  decide +kernel

end Query

end LinkedDocs
