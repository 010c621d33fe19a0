import LinkedDocs.Proofs.Plan.Rescoping
import LinkedDocs.Proofs.Reading.Equivalence

/-!
# Pages and their documents read one by one

A page is searched for and its documents are resolved together, in one pass with one memo. A single
document is fetched by its id in a pass of its own, from a plan whose root has no scope and so asks
for fewer fields. What is answered is the same:

> `many_eq_ones`: an answered page is, document by document, what is answered to a client who asks
> for the documents of the page one by one.

Both passes write what the plain reading writes, of the selector in the scopes of the plan
(`Selector.scopedBy`). These are the same scopes for the page and for the single document, so it
does not matter whether many references that share a node agree on theirs.
-/

namespace LinkedDocs

open Selector (scopedBy subScopedBy itemsScopedBy)

/-! ## Writing in the scopes of the plan -/

namespace Answer

mutual

/-- What is written does not depend on the scopes in a selector: the pages are in the memo. -/
theorem write_scopedBy (memo : Memo) : ∀ (selector : Selector) (plan : Plan) (e : Entity)
    (start : String) (out : Fields),
      write memo (scopedBy selector plan) plan e start out = write memo selector plan e start out
  | .wildcard, _, _, _, _ => rfl
  | .field _, _, _, _, _ => rfl
  | .list items, plan, e, start, out => by
    rw [scopedBy, write, write]
    exact writeItems_scopedBy memo items plan e start out
  | .one target sub, plan, e, start, out => by
    rw [scopedBy, write, write]
    cases hchild : plan.child? (.one target) with
    | none => rw [show plan.ones.lookup target = none from hchild]
    | some child =>
      rw [show plan.ones.lookup target = some child from hchild]
      dsimp only
      cases referenced? memo child e target with
      | none => rfl
      | some found => exact writeOne_scopedBy memo sub child found _ out
  | .many target sub scope, plan, e, start, out => by
    rw [scopedBy, write, write]
    cases hchild : plan.child? (.many target) with
    | none => rw [show plan.manys.lookup target = none from hchild]
    | some child =>
      rw [show plan.manys.lookup target = some child from hchild]
      dsimp only
      cases members? memo child e with
      | none => rfl
      | some members => exact writeMany_scopedBy memo sub child members _ out

theorem writeItems_scopedBy (memo : Memo) : ∀ (items : List Selector) (plan : Plan) (e : Entity)
    (start : String) (out : Fields),
      writeItems memo (itemsScopedBy items plan) plan e start out
        = writeItems memo items plan e start out
  | [], _, _, _, _ => rfl
  | item :: items, plan, e, start, out => by
    rw [itemsScopedBy, writeItems, writeItems, write_scopedBy memo item plan e start out]
    exact writeItems_scopedBy memo items plan e start _

/-- Below a single reference. -/
theorem writeOne_scopedBy (memo : Memo) : ∀ (sub : Option Selector) (child : Plan)
    (found : Entity) (key : String) (out : Fields),
      writeOne memo (subScopedBy sub (some child)) child found key out
        = writeOne memo sub child found key out
  | none, _, _, _, _ => rfl
  | some sub, child, found, key, out => by
    have hwrite := write_scopedBy memo sub child found
    cases sub with
    | wildcard => rfl
    | list items =>
      have hitems := hwrite "" .empty
      rw [scopedBy, write, write] at hitems
      rw [subScopedBy, scopedBy, writeOne, writeOne, hitems]
    | field | one | many => exact hwrite (key ++ ".") out

/-- Below a many reference. -/
theorem writeMany_scopedBy (memo : Memo) : ∀ (sub : Option Selector) (child : Plan)
    (members : List Entity) (key : String) (out : Fields),
      writeMany memo (subScopedBy sub (some child)) child members key out
        = writeMany memo sub child members key out
  | none, _, _, _, _ => rfl
  | some sub, child, members, key, out => by
    have hwrite := fun member => write_scopedBy memo sub child member
    cases sub with
    | wildcard | field => rfl
    | list items =>
      have hitems := fun member => hwrite member "" .empty
      simp only [scopedBy, write] at hitems
      rw [subScopedBy, scopedBy, writeMany, writeMany]
      simp only [hitems]
    | one | many =>
      simp only [scopedBy] at hwrite
      simp only [subScopedBy, scopedBy, writeMany, hwrite]

end

theorem ofEntity_scopedBy (memo : Memo) (plan : Plan) (select : Option Selector) (e : Entity) :
    ofEntity memo plan (subScopedBy select (some plan)) e = ofEntity memo plan select e := by
  cases select with
  | none => rfl
  | some selector => exact congrArg Value.ofFields (write_scopedBy memo selector plan e "" .empty)

end Answer

variable {m : Memory} {p : Permission}

/-- The id of a document leads to the document. -/
theorem Memory.Distinct.entity?_eq (h : m.Distinct) (hm : m.Identified) {collection : String}
    {e : Entity} (he : e ∈ m.entities collection) : m.entity? collection e.id = some e := by
  cases hfound : m.entity? collection e.id with
  | none => exact absurd (beq_self_eq_true e.id) (List.find?_eq_none.mp hfound e he)
  | some found =>
    have hmatch := List.find?_some hfound
    have hid : found.id = e.id := eq_of_beq hmatch
    rw [h.eq_of_id_eq hm (mem_entities_of_entity? hfound) he hid]

namespace Plan

/-- A plan that is built for a request is built for the request in its own scopes. -/
theorem exists_built_scopedBy {collection : String} {select : Option Selector} {scope : Scope}
    {plan : Plan} (h : build collection select scope = .ok plan) :
    ∃ layout, Built layout plan collection (subScopedBy select (some plan)) scope := by
  obtain ⟨next, hload⟩ := of_build h
  exact exists_built_of_serves h (servesSub_scopedBy hload (.refl plan))

/-- What hangs below a document has nothing to do with the scope of the root. -/
theorem resolves_withScope {plan : Plan} (scope : Scope) (e : Entity) :
    (plan.withScope scope).Resolves m p e ↔ plan.Resolves m p e := by
  cases plan
  exact Iff.rfl

end Plan

namespace Query

open Pass (settles_resolveOne settles_resolveRoot settles_expand)

variable {collection : String} {request : Request} {plan : Plan}

/-- How the pass for a page ends, whatever scopes the selector has. -/
theorem settles_many (distinct : m.Distinct) (hm : m.Identified) (on : m.offline = false)
    {layout : Plan.Layout} {select : Option Selector} {scope : Scope}
    (built : plan.Built layout collection select scope) :
    Pass.Settles m p layout .empty (Pass.many p plan none [])
      ((m.page p collection [] scope).map (·.restrict plan.projection))
      (fun memo => ∀ e ∈ m.page p collection [] scope, plan.Covers m p memo e)
      (p.refuses collection scope.filter = false ∧
        ∀ e ∈ m.page p collection [] scope, plan.Resolves m p e) := by
  have hsettles := settles_resolveRoot (p := p) hm on ⟨plan, none⟩
    (settles_expand hm distinct on plan built.regular built.placed) []
  rw [← built.collection, ← built.scope]
  exact hsettles

/-- A page that is answered may be searched for, and nothing that its documents lead to is refused.
-/
theorem granted_of_many (distinct : m.Distinct) (hm : m.Identified) (on : m.offline = false)
    (hplan : Plan.build collection request.select request.scope = .ok plan) {list : List Value}
    (h : (many p collection request).eval m.reply = .ok list) :
    p.refuses collection request.scope.filter = false ∧
      ∀ e ∈ m.page p collection [] request.scope, plan.Resolves m p e := by
  obtain ⟨layout, built⟩ := Plan.exists_built_scopedBy hplan
  rw [eval_many hplan] at h
  cases hended : (Pass.eval m.reply (Pass.many p plan none []) .empty).1 with
  | ok found => exact (settles_many distinct hm on built).goesWell_of_ok hended
  | error error =>
    rw [hended] at h
    cases h

/-- Such a page is answered: with what is read plainly of its documents in the scopes of the plan.
-/
theorem eval_many_of_granted (distinct : m.Distinct) (hm : m.Identified) (on : m.offline = false)
    (hplan : Plan.build collection request.select request.scope = .ok plan)
    (hgranted : p.refuses collection request.scope.filter = false)
    (hresolves : ∀ e ∈ m.page p collection [] request.scope, plan.Resolves m p e) :
    ∃ list, (many p collection request).eval m.reply = .ok list ∧
      (m.page p collection [] request.scope).map
          (Plain.ofEntity m p (subScopedBy request.select (some plan)) collection)
        = list.map some := by
  obtain ⟨layout, built⟩ := Plan.exists_built_scopedBy hplan
  obtain ⟨memo, heval, hfaithful, hcovers⟩ :=
    (settles_many distinct hm on built).exists_memo ⟨hgranted, hresolves⟩
  rw [eval_many hplan, heval]
  refine ⟨_, rfl, ?_⟩
  rw [List.map_map, List.map_map]
  refine List.map_congr_left fun e he => ?_
  have hready : Plan.Ready m p memo plan e := by
    refine ⟨?_, hresolves e he, hcovers e he⟩
    rw [built.collection]
    exact Memory.mem_entities_of_page he
  rw [Answer.ofEntity_eq hm on hfaithful built hready, Answer.ofEntity_scopedBy]
  rfl

/-- A page that is answered has nothing in it that is refused, and each of its documents is answered
with what is read plainly in the scopes of the plan. -/
theorem eval_many_scopedBy (distinct : m.Distinct) (hm : m.Identified) (on : m.offline = false)
    (hplan : Plan.build collection request.select request.scope = .ok plan) {list : List Value}
    (h : (many p collection request).eval m.reply = .ok list) :
    (∀ e ∈ m.page p collection [] request.scope, plan.Resolves m p e) ∧
      (m.page p collection [] request.scope).map
          (Plain.ofEntity m p (subScopedBy request.select (some plan)) collection)
        = list.map some := by
  obtain ⟨hgranted, hresolves⟩ := granted_of_many distinct hm on hplan h
  obtain ⟨list', heval, hlist⟩ := eval_many_of_granted distinct hm on hplan hgranted hresolves
  cases h.symm.trans heval
  exact ⟨hresolves, hlist⟩

/-- A document that the caller may see, with nothing below it that is refused, is answered with what
is read plainly in the scopes of the plan. -/
theorem eval_one_scopedBy (distinct : m.Distinct) (hm : m.Identified) (on : m.offline = false)
    (hplan : Plan.build collection request.select .unrestricted = .ok plan) {e : Entity}
    (he : e ∈ m.entities collection) (hcheck : p.check collection e.id = true)
    (hresolves : plan.Resolves m p e) :
    ∃ value, (one p collection e.id request).eval m.reply = .ok (some value) ∧
      Plain.ofEntity m p (subScopedBy request.select (some plan)) collection e = some value := by
  obtain ⟨layout, built⟩ := Plan.exists_built_scopedBy hplan
  have hsettles := settles_resolveOne (p := p) hm on Memo.faithful_empty ⟨plan, none⟩
    built.placed.root (settles_expand hm distinct on plan built.regular built.placed) e.id
  -- the document is the one that its id leads to
  have hfound : m.entity? plan.info.collection e.id = some e := by
    rw [built.collection]
    exact distinct.entity?_eq hm he
  have hwell : p.check plan.info.collection e.id = true ∧
      ∀ found, m.entity? plan.info.collection e.id = some found → plan.Resolves m p found := by
    refine ⟨by rwa [built.collection], fun found hsome => ?_⟩
    cases hfound.symm.trans hsome
    exact hresolves
  obtain ⟨memo, heval, hfaithful, -, hcovers⟩ := hsettles.exists_memo hwell
  change Pass.eval m.reply (Pass.one p plan e.id) .empty = _ at heval
  have hready : Plan.Ready m p memo plan e :=
    ⟨Memory.mem_entities_of_entity? hfound, hresolves, hcovers e hfound⟩
  refine ⟨_, ?_, Answer.ofEntity_eq hm on hfaithful built hready⟩
  rw [eval_one hplan, heval, Plan.fetched, hfound, Answer.ofEntity_scopedBy]
  rfl

/-- An answered page has a plan and a store that is online. -/
theorem exists_plan_of_many {list : List Value}
    (h : (many p collection request).eval m.reply = .ok list) :
    m.offline = false ∧ ∃ plan, Plan.build collection request.select request.scope = .ok plan := by
  cases hplan : Plan.build collection request.select request.scope with
  | error error =>
    rw [many, hplan] at h
    cases h
  | ok plan =>
    refine ⟨?_, plan, rfl⟩
    by_contra on
    obtain ⟨error, hfails⟩ : ∃ error,
        (Pass.eval m.reply (Pass.many p plan none []) .empty).1 = .error error :=
      resolveMany_of_offline (by simpa using on) (Pass.expand p plan) []
    rw [eval_many hplan, hfails] at h
    cases h

/-- **A page is answered as its documents are one by one.** On any store whose documents have ids:
if a page is answered, take the window of the sorted documents of the collection that pass the
filter of the request and the check of the permission. The answer has as many members as there are
documents, and each member is what is answered to a client with the same permission who asks for the
document at its place, by the id and with the same selector. -/
theorem many_eq_ones (reachable : m.Reachable) (hm : m.Identified) (p : Permission)
    (collection : String) (request : Request) {list : List Value}
    (h : ((many p collection request).run Memory.answer m).1 = .ok list) :
    let page := request.scope.window (request.scope.order.sort
      ((m.entities collection).filter fun e =>
        request.scope.filter.holds e && p.check collection e.id))
    list.length = page.length ∧
      ∀ (scope : Scope) (i : Nat) (e : Entity), page[i]? = some e → ∃ value,
        list[i]? = some value ∧
          ((one p collection e.id ⟨request.select, scope⟩).run Memory.answer m).1
            = .ok (some value) := by
  intro page
  rw [(m.run_eq_eval (reads_many p collection request)).1] at h
  obtain ⟨on, plan, hplan⟩ := exists_plan_of_many h
  obtain ⟨hresolves, hlist⟩ := eval_many_scopedBy reachable.distinct hm on hplan h
  change page.map _ = _ at hlist
  have hlength : page.length = list.length := by simpa using congrArg List.length hlist
  refine ⟨hlength.symm, fun scope i e hi => ?_⟩
  have he : e ∈ m.page p collection [] request.scope := List.mem_of_getElem? hi
  -- the single document is read by the same plan, but for the scope of its root
  let single : Request := ⟨request.select, scope⟩
  have hplan' : Plan.build collection single.select .unrestricted
      = .ok (plan.withScope .unrestricted) := Plan.build_withScope hplan .unrestricted
  obtain ⟨value, hone, hplain⟩ := eval_one_scopedBy reachable.distinct hm on hplan'
    (Memory.mem_entities_of_page he) (Memory.check_of_mem_page he)
    ((Plan.resolves_withScope _ e).mpr (hresolves e he))
  rw [Selector.subScopedBy_withScope] at hplain
  refine ⟨value, ?_, ?_⟩
  · have hat : (page.map _)[i]? = (list.map some)[i]? := congrArg (·[i]?) hlist
    rw [List.getElem?_map, List.getElem?_map, hi, Option.map_some, hplain] at hat
    obtain ⟨member, hmember, heq⟩ := Option.map_eq_some_iff.mp hat.symm
    cases heq
    exact hmember
  · rw [(m.run_eq_eval (reads_one p collection e.id single)).1]
    exact hone

/-- The machine of two disks, from a page and by its id. Both selectors are answered with the page
of the first, wherever the machine is read. -/
theorem many_eq_ones_shared_page :
    let request : Request := ⟨some (.list [zeroDisks false (.field "id"),
      zeroDisks true (.list [.field "id"])]), ⟨[⟨"id", .equals (.string "1")⟩], [], some 2, 0⟩⟩
    let machine : Value := .object [("@[disk].id", .array [.string "a"]),
      ("@[disk]", .array [.object [("id", .string "a")]])]
    ((many .unrestricted "vm" request).run Memory.answer machineOfZeros).1 = .ok [machine] ∧
      ((one .unrestricted "vm" "1" request).run Memory.answer machineOfZeros).1
        = .ok (some machine) := by
  intro request machine
  have reachable : machineOfZeros.Reachable := (Memory.Reachable.empty.seed _ _).seed _ _
  have hpage : ((many .unrestricted "vm" request).run Memory.answer machineOfZeros).1
      = .ok [machine] := by decide +kernel
  obtain ⟨-, hones⟩ := many_eq_ones reachable (by decide +kernel) .unrestricted "vm" request hpage
  obtain ⟨value, hvalue, hone⟩ := hones request.scope 0 (.withId .empty "1") (by decide +kernel)
  cases hvalue
  exact ⟨hpage, hone⟩

end Query

end LinkedDocs
