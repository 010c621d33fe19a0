import LinkedDocs.Proofs.Pass.Calls
import LinkedDocs.Proofs.Pass.Expansion
import LinkedDocs.Proofs.Reading.Demand

/-!
# Queries read plainly

A query makes a plan in which selectors share nodes, resolves each document once, fetches the fields
of the node only, and writes from what it remembers. All this is not to be seen from outside:

> `run_eq_plain`: a query for which there is a plan fails exactly if the plain reading fails, and
> otherwise both come to the same values with the keys in the same order.

The exception is stated as a condition. Many references on one path share the scope of the first of
them, and `Scope.same` takes the two zeros for one, while a filter compares them by text. Where two
such filters differ in the sign of a zero, the query answers both with the documents of the first
(`signed_zeros_share_page`).
-/

namespace LinkedDocs

open Selector (scopesOfSub ScopesAgree)
open Plan (Ready Placed ServesSub)

variable {m : Memory} {p : Permission}

namespace Plan

/-- A plan that is built for a request, and where its nodes are. -/
structure Built (layout : Layout) (plan : Plan) (collection : String) (select : Option Selector)
    (scope : Scope) : Prop where
  collection : plan.info.collection = collection
  scope : plan.info.scope = scope
  regular : plan.Regular
  placed : Placed layout none plan
  serves : ServesSub select plan

/-- A plan that is built has a layout, whatever it is to serve. -/
theorem exists_built_of_serves {collection : String} {select served : Option Selector}
    {scope : Scope} {plan : Plan} (h : build collection select scope = .ok plan)
    (serves : ServesSub served plan) : ∃ layout, Built layout plan collection served scope := by
  obtain ⟨hregular, hcollection, count, hids⟩ := build_numbers h
  obtain ⟨layout, hplaced⟩ := exists_layout (hids.nodup_iff.mpr List.nodup_range)
  obtain ⟨next, hload⟩ := of_build h
  exact ⟨layout, hcollection, (loadSub_extends hload).root.scope, hregular, hplaced, serves⟩

theorem exists_built {collection : String} {select : Option Selector} {scope : Scope} {plan : Plan}
    (agree : ScopesAgree (scopesOfSub select)) (h : build collection select scope = .ok plan) :
    ∃ layout, Built layout plan collection select scope := by
  obtain ⟨next, hload⟩ := of_build h
  exact exists_built_of_serves h (serves_of_loadSub hload (fits_leaf agree 0 collection scope))

/-- What a plan is built for can be read plainly only if nothing below the document is refused. -/
theorem resolves_of_ofEntity (hm : m.Identified) (on : m.offline = false) {collection : String}
    {select : Option Selector} {scope : Scope} {plan : Plan}
    (agree : ScopesAgree (scopesOfSub select)) (h : build collection select scope = .ok plan)
    {e : Entity} {value : Value} (hread : Plain.ofEntity m p select collection e = some value) :
    plan.Resolves m p e := by
  obtain ⟨next, hload⟩ := of_build h
  cases select with
  | none =>
    cases hload
    exact (resolves_leaf 0 collection scope e).readAll
  | some selector =>
    rw [Plain.ofEntity, Option.map_eq_some_iff] at hread
    obtain ⟨written, hwritten, -⟩ := hread
    exact resolves_of_write hm on selector hload (fits_leaf agree 0 collection scope)
      (regular_leaf 0 collection scope) hwritten (resolves_leaf 0 collection scope e)

end Plan

/-- The answer for a document that the memo covers is the plain one. -/
theorem Answer.ofEntity_eq (hm : m.Identified) (on : m.offline = false) {layout : Plan.Layout}
    {memo : Memo} (h : Memo.Faithful m p layout memo) {plan : Plan} {collection : String}
    {select : Option Selector} {scope : Scope} (built : plan.Built layout collection select scope)
    {e : Entity} (hready : Ready m p memo plan e) :
    Plain.ofEntity m p select collection e
      = some (Answer.ofEntity memo plan select (e.restrict plan.projection)) := by
  cases select with
  | none =>
    rw [Plain.ofEntity, Answer.ofEntity, Plan.projection_eq_all built.serves, Entity.restrict_all]
  | some selector =>
    rw [Plain.ofEntity, Answer.ofEntity, ← built.collection,
      Answer.write_eq hm on h selector built.placed built.regular built.serves hready]
    rfl

namespace Pass

variable {layout : Plan.Layout}

/-- A step that settles, seen through what is made of its result. -/
theorem Settles.toOption_map {α β : Type} {step : Pass α} {a : α} {holds : Memo → Prop}
    {goesWell : Prop} (h : Settles m p layout .empty step a holds goesWell)
    (write : Memo → α → β) {plain : Option β}
    (hwrite : ∀ memo, Memo.Faithful m p layout memo → goesWell → holds memo →
      plain = some (write memo a))
    (hrefused : ∀ b, plain = some b → goesWell) :
    ((eval m.reply step .empty).1.map (write (eval m.reply step .empty).2)).toOption = plain := by
  unfold Settles at h
  split at h
  · next result memo heval =>
    obtain ⟨rfl, hwell, hfaithful, -, hholds⟩ := h
    rw [heval, hwrite memo hfaithful hwell hholds]
    rfl
  · next error memo heval =>
    rw [heval]
    cases plain with
    | none => rfl
    | some b => exact absurd (hrefused b rfl) h

end Pass

namespace Query

open Pass (settles_resolveOne settles_resolveRoot settles_expand)

variable {collection : String} {request : Request} {plan : Plan}

/-- Without a store a document cannot be resolved. -/
theorem resolveOne_of_offline (off : m.offline = true) (expand : Entity → Pass Unit) (id : String) :
    ∃ error, (Pass.eval m.reply (Pass.resolveOne p plan expand id) .empty).1 = .error error := by
  have hfetch : ∃ memo, Pass.eval m.reply (Pass.fetchOne plan id) .empty
      = (.error (.ofStore Memory.unreachable), memo) := by
    refine ⟨{ Memo.empty with gets := 1 }, ?_⟩
    rw [Pass.eval_fetchOne, show Memo.empty.entity? plan.info.id id = none from rfl,
      Memory.reply_of_offline off]
    rfl
  obtain ⟨memo, hfetch⟩ := hfetch
  rw [Pass.resolveOne_eq]
  split
  · rw [Pass.eval_bind, hfetch]
    exact ⟨_, rfl⟩
  · exact ⟨_, rfl⟩

/-- Without a store a page cannot be resolved. -/
theorem resolveMany_of_offline (off : m.offline = true) (expand : Entity → Pass Unit)
    (link : Filter) :
    ∃ error, (Pass.eval m.reply (Pass.resolveMany p plan expand none link) .empty).1
      = .error error := by
  have hfetch : ∃ error memo, Pass.eval m.reply (Pass.fetchPage p plan expand link) .empty
      = (.error error, memo) := by
    rw [Pass.fetchPage_eq, Pass.eval_bind, Pass.eval_findPage]
    cases p.narrow plan.info.collection (link ++ plan.info.scope.filter) with
    | error error => exact ⟨error, _, rfl⟩
    | ok filter =>
      dsimp only
      rw [Memory.reply_of_offline off]
      exact ⟨.ofStore Memory.unreachable, _, rfl⟩
  obtain ⟨error, memo, hfetch⟩ := hfetch
  rw [Pass.resolveMany_eq, Pass.eval_bind, Pass.eval_get]
  dsimp only
  rw [show Memo.empty.page? plan.info.id none = none from rfl]
  dsimp only
  rw [Pass.eval_bind, hfetch]
  exact ⟨error, rfl⟩

/-- Reading one document goes as plainly. -/
theorem eval_one_eq_plain (distinct : m.Distinct) (hm : m.Identified) (id : String)
    (agree : ScopesAgree (scopesOfSub request.select))
    (hplan : Plan.build collection request.select .unrestricted = .ok plan) :
    ((one p collection id request).eval m.reply).toOption
      = Plain.one m p collection id request := by
  obtain ⟨layout, built⟩ := Plan.exists_built agree hplan
  rw [eval_one hplan]
  by_cases on : m.offline = false
  · have hsettles := settles_resolveOne (p := p) hm on Memo.faithful_empty ⟨plan, none⟩
      built.placed.root (settles_expand hm distinct on plan built.regular built.placed) id
    refine hsettles.toOption_map
      (fun memo found => found.map (Answer.ofEntity memo plan request.select)) ?_ ?_
    · -- the pass has succeeded, so the document it covers is read plainly as well
      rintro memo hfaithful ⟨hcheck, hresolves⟩ ⟨-, hcovers⟩
      rw [Plain.one, Plain.document_eq hm on, ← built.collection, if_pos hcheck, Plan.fetched]
      cases hfound : m.entity? plan.info.collection id with
      | none => rfl
      | some e =>
        have hready : Plan.Ready m p memo plan e :=
          ⟨Memory.mem_entities_of_entity? hfound, hresolves e hfound, hcovers e hfound⟩
        have hwritten := Answer.ofEntity_eq hm on hfaithful built hready
        rw [← built.collection] at hwritten
        simp [hwritten]
    · -- the plain reading has a result, so nothing that the plan leads to is refused
      intro result hread
      dsimp only
      rw [Plain.one, Plain.document_eq hm on, ← built.collection] at hread
      split at hread
      · next hcheck =>
        refine ⟨hcheck, fun found hfound => ?_⟩
        rw [hfound] at hread
        simp only [Option.bind_eq_bind, Option.bind_some, Option.bind_eq_some_iff] at hread
        obtain ⟨value, hvalue, -⟩ := hread
        rw [built.collection] at hvalue
        exact Plan.resolves_of_ofEntity hm on agree hplan hvalue
      · cases hread
  · -- without a store both fail
    have off : m.offline = true := by simpa using on
    obtain ⟨error, hfails⟩ := resolveOne_of_offline (p := p) off (Pass.expand p plan) id
    have hplain : Plain.one m p collection id request = none := by
      rw [Plain.one, Plain.document, Memory.reply_of_offline off]
      split <;> rfl
    rw [hplain, show (Pass.eval m.reply (Pass.one p plan id) .empty).1 = _ from hfails]
    rfl

/-- Reading a page goes as plainly. -/
theorem eval_many_eq_plain (distinct : m.Distinct) (hm : m.Identified)
    (agree : ScopesAgree (scopesOfSub request.select))
    (hplan : Plan.build collection request.select request.scope = .ok plan) :
    ((many p collection request).eval m.reply).toOption = Plain.many m p collection request := by
  obtain ⟨layout, built⟩ := Plan.exists_built agree hplan
  rw [eval_many hplan]
  by_cases on : m.offline = false
  · have hsettles := settles_resolveRoot (p := p) hm on ⟨plan, none⟩
      (settles_expand hm distinct on plan built.regular built.placed) []
    refine hsettles.toOption_map
      (fun memo page => page.map (Answer.ofEntity memo plan request.select)) ?_ ?_
    · -- the pass has succeeded, so every member of the page is read plainly as well
      rintro memo hfaithful ⟨hgranted, hresolves⟩ hcovers
      dsimp only at hgranted hresolves hcovers ⊢
      rw [built.scope] at hgranted hresolves hcovers
      rw [Plain.many, Plain.page_eq hm on, ← built.collection, hgranted, Plan.fetchedPage,
        built.scope]
      dsimp only [Option.bind_eq_bind, Option.bind_some]
      simp only [Bool.false_eq_true, if_false, Option.bind_some]
      rw [mapM_eq_some_iff, List.map_map, List.map_map]
      refine List.map_congr_left fun e he => ?_
      have hready : Plan.Ready m p memo plan e :=
        ⟨Memory.mem_entities_of_page he, hresolves e he, hcovers e he⟩
      rw [built.collection]
      exact Answer.ofEntity_eq hm on hfaithful built hready
    · -- every member has a plain result, so nothing that the plan leads to is refused
      intro result hread
      dsimp only
      rw [built.scope]
      rw [Plain.many, Plain.page_eq hm on, ← built.collection] at hread
      split at hread
      · cases hread
      · next hgranted =>
        refine ⟨by simpa using hgranted, fun member hmember => ?_⟩
        obtain ⟨value, hvalue⟩ := exists_of_mapM hread hmember
        rw [built.collection] at hvalue
        exact Plan.resolves_of_ofEntity hm on agree hplan hvalue
  · -- without a store both fail
    have off : m.offline = true := by simpa using on
    obtain ⟨error, hfails⟩ := resolveMany_of_offline (p := p) off (Pass.expand p plan) []
    have hplain : Plain.many m p collection request = none := by
      rw [Plain.many, Plain.page, Memory.reply_of_offline off]
      split <;> rfl
    rw [hplain, show (Pass.eval m.reply (Pass.many p plan none []) .empty).1 = _ from hfails]
    rfl

/-- **Queries read plainly.** Where there is a plan, a query fails exactly if the plain reading
fails, and otherwise comes to the same values, if many references on one path with the same scope
have equivalent filters. -/
theorem run_eq_plain (reachable : m.Reachable) (hm : m.Identified) (p : Permission)
    (collection : String) (request : Request) (agree : ScopesAgree (scopesOfSub request.select)) :
    (∀ id, (Plan.build collection request.select .unrestricted).isOk = true →
        ((one p collection id request).run Memory.answer m).1.toOption
          = Plain.one m p collection id request) ∧
      ((Plan.build collection request.select request.scope).isOk = true →
        ((many p collection request).run Memory.answer m).1.toOption
          = Plain.many m p collection request) := by
  have hbuilt : ∀ {scope}, (Plan.build collection request.select scope).isOk = true →
      ∃ plan, Plan.build collection request.select scope = .ok plan := by
    intro scope hok
    cases hplan : Plan.build collection request.select scope with
    | ok plan => exact ⟨plan, rfl⟩
    | error error => simp [hplan, Except.isOk, Except.toBool] at hok
  constructor
  · intro id hok
    obtain ⟨plan, hplan⟩ := hbuilt hok
    rw [(m.run_eq_eval (reads_one p collection id request)).1]
    exact eval_one_eq_plain reachable.distinct hm id agree hplan
  · intro hok
    obtain ⟨plan, hplan⟩ := hbuilt hok
    rw [(m.run_eq_eval (reads_many p collection request)).1]
    exact eval_many_eq_plain reachable.distinct hm agree hplan

/-- The disks whose size is a zero. -/
def zeroDisks (negative : Bool) (sub : Selector) : Selector :=
  .many "disk" (some sub)
    { Scope.unrestricted with filter := [⟨"size", .equals (.number (.real (.zero negative)))⟩] }

/-- A machine with two disks, one of size zero and one of size minus zero. -/
def machineOfZeros : Memory :=
  ((Memory.empty.seed "vm" [.object [("id", .string "1")]]).2.seed "disk"
    [.object [("id", .string "a"), ("vm", .string "1"), ("size", .number (.real (.zero false)))],
      .object [("id", .string "b"), ("vm", .string "1"), ("size", .number (.real (.zero true)))]]).2

/-- Two selectors share the page of a machine, and one of them leads back to the machine. -/
theorem run_eq_plain_shared_page :
    let request : Request := ⟨some (.list [zeroDisks false (.field "id"),
      zeroDisks false (.list [.one "vm" (some (.field "id"))])]), .unrestricted⟩
    ((one .unrestricted "vm" "1" request).run Memory.answer machineOfZeros).1.toOption
        = Plain.one machineOfZeros .unrestricted "vm" "1" request ∧
      Plain.one machineOfZeros .unrestricted "vm" "1" request = some (some (.object
        [("@[disk].id", .array [.string "a"]),
          ("@[disk]", .array [.object [("@vm.id", .string "1")]])])) := by
  intro request
  have reachable : machineOfZeros.Reachable := (Memory.Reachable.empty.seed _ _).seed _ _
  have agree : ScopesAgree (scopesOfSub request.select) :=
    Selector.scopesAgree_of_texts (by decide +kernel)
  refine ⟨?_, by decide +kernel⟩
  exact (run_eq_plain reachable (by decide +kernel) .unrestricted "vm" request agree).1 "1"
    (by decide +kernel)

/-- The sign of a zero tells the disks apart, but not the scopes: the second selector is answered
with the page of the first. -/
theorem signed_zeros_share_page :
    let request : Request := ⟨some (.list [zeroDisks false (.field "id"),
      zeroDisks true (.list [.field "id"])]), .unrestricted⟩
    (machineOfZeros.Reachable ∧ machineOfZeros.Identified ∧
      (Plan.build "vm" request.select .unrestricted).isOk = true) ∧
    ((one .unrestricted "vm" "1" request).run Memory.answer machineOfZeros).1
        = .ok (some (.object [("@[disk].id", .array [.string "a"]),
          ("@[disk]", .array [.object [("id", .string "a")]])])) ∧
      Plain.one machineOfZeros .unrestricted "vm" "1" request
        = some (some (.object [("@[disk].id", .array [.string "a"]),
          ("@[disk]", .array [.object [("id", .string "b")]])])) := by
  refine ⟨⟨(Memory.Reachable.empty.seed _ _).seed _ _, ?_⟩, ?_⟩ <;> decide +kernel

end Query

end LinkedDocs
