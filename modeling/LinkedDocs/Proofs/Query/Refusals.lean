import LinkedDocs.Manager
import LinkedDocs.Proofs.Pass.Calls
import LinkedDocs.Proofs.Store.Reads

/-!
# Why reads are refused

A read that reaches a store whose documents all have ids, and that is online, can fail for two
reasons: the request is malformed, or the caller may not see what it asks for. The store gives no
reason. This is followed through all that a read does: the request is read, in each of its forms and
with remembered selectors; a plan is made of it; the plan is resolved; and the answer is written.

> `Manager.refused_of_get`, `Manager.refused_of_list`: an error of a read is one of the two,
> whatever the permission, the request and the selectors that are remembered.
-/

namespace LinkedDocs

namespace QueryError

/-- The request is malformed. -/
def Malformed (error : QueryError) : Prop := ∃ fragment fault, error = .badSelector fragment fault

/-- The caller may not see what is asked for. -/
def Forbidden (error : QueryError) : Prop := ∃ collection id, error = .forbidden collection id

/-- One of the two: the store has no part in the error. -/
def Refused (error : QueryError) : Prop := error.Malformed ∨ error.Forbidden

end QueryError

open QueryError (Malformed Forbidden)

/-! ## Kinds of errors -/

/-- Whenever this fails, its error is of the kind. -/
def FailsOnly {α : Type} (kind : QueryError → Prop) (x : Except QueryError α) : Prop :=
  ∀ error, x = .error error → kind error

namespace FailsOnly

variable {α β : Type} {kind kind' : QueryError → Prop}

theorem ok (a : α) : FailsOnly kind (.ok a) := nofun

theorem error {error : QueryError} (h : kind error) :
    FailsOnly kind (.error error : Except _ α) := by
  rintro _ ⟨⟩
  exact h

theorem bind {x : Except QueryError α} {f : α → Except QueryError β} (hx : FailsOnly kind x)
    (hf : ∀ a, FailsOnly kind (f a)) : FailsOnly kind (x >>= f) := by
  cases x with
  | ok a => exact hf a
  | error cause => exact .error (hx cause rfl)

theorem map {x : Except QueryError α} (hx : FailsOnly kind x) (f : α → β) :
    FailsOnly kind (x.map f) := by
  cases x with
  | ok a => exact .ok (f a)
  | error cause => exact .error (hx cause rfl)

theorem mono {x : Except QueryError α} (hx : FailsOnly kind x)
    (h : ∀ error, kind error → kind' error) : FailsOnly kind' x :=
  fun error herror => h error (hx error herror)

theorem badSelector (fragment : String) (fault : RequestFault) :
    FailsOnly Malformed (.error (.badSelector fragment fault) : Except _ α) :=
  .error ⟨fragment, fault, rfl⟩

end FailsOnly

/-! ## Scopes -/

theorem SortKey.failsOnly_read (raw : String) : FailsOnly Malformed (read raw) := by
  unfold read
  dsimp only
  split <;> dsimp only <;> split
  · exact .badSelector _ _
  · exact .ok _
  · exact .badSelector _ _
  · exact .ok _

theorem Order.failsOnly_ofEntries (entries : List Value) :
    FailsOnly Malformed (ofEntries entries) := by
  induction entries with
  | nil => exact .ok []
  | cons entry entries ih =>
    cases entry with
    | string raw => exact (SortKey.failsOnly_read raw).bind fun key => ih.bind fun keys => .ok _
    | null | bool | number | array | object => exact .badSelector _ _

theorem Order.failsOnly_ofValue (value : Value) : FailsOnly Malformed (ofValue value) := by
  cases value with
  | null => exact .ok []
  | string raw => exact (SortKey.failsOnly_read raw).map _
  | array entries => exact failsOnly_ofEntries entries
  | bool | number | object => exact .badSelector _ _

namespace Scope

theorem failsOnly_readOperator (field : String) (members : List (String × Value)) :
    FailsOnly Malformed (readOperator field members) := by
  unfold readOperator
  dsimp only
  split
  · split
    · exact .ok _
    · exact .badSelector _ _
  · exact .badSelector _ _

theorem failsOnly_readTest (field : String) (value : Value) :
    FailsOnly Malformed (readTest field value) := by
  cases value with
  | string raw =>
    rw [readTest]
    split
    · split
      · exact .ok _
      · exact .badSelector _ _
    · exact .ok _
  | object members => exact failsOnly_readOperator field members
  | null | bool | number | array => exact .ok _

theorem failsOnly_readConditions (members : List (String × Value)) :
    FailsOnly Malformed (readConditions members) := by
  induction members with
  | nil => exact .ok []
  | cons member members ih =>
    obtain ⟨field, value⟩ := member
    exact (failsOnly_readTest field value).bind fun test => ih.bind fun conditions => .ok _

theorem failsOnly_readFilter (value : Value) : FailsOnly Malformed (readFilter value) := by
  cases value with
  | null => exact .ok []
  | object members => exact failsOnly_readConditions members
  | bool | number | string | array => exact .badSelector _ _

theorem failsOnly_readCount (name : String) (value : Value) :
    FailsOnly Malformed (readCount name value) := by
  cases value with
  | null => exact .ok none
  | number n =>
    rw [readCount]
    split
    · exact .ok _
    · exact .badSelector _ _
  | bool | string | array | object => exact .badSelector _ _

theorem failsOnly_ofMembers (members : List (String × Value)) :
    FailsOnly Malformed (ofMembers members) :=
  (failsOnly_readFilter _).bind fun _ => (Order.failsOnly_ofValue _).bind fun _ =>
    (failsOnly_readCount _ _).bind fun _ => (failsOnly_readCount _ _).bind fun _ => .ok _

end Scope

/-! ## Requests -/

/-- Whenever the reading fails, from whatever state, the form is malformed. -/
def Reading.Checks {σ α : Type} (x : Reading σ α) : Prop := ∀ s, FailsOnly Malformed (x.run s).1

namespace Reading

variable {σ α β : Type}

theorem checks_pure (a : α) : Checks (pure a : Reading σ α) := fun _ => .ok a

theorem checks_throw {error : QueryError} (h : error.Malformed) :
    Checks (throw error : Reading σ α) := fun _ => .error h

theorem checks_get : Checks (get : Reading σ σ) := fun s => .ok s

theorem checks_set (s : σ) : Checks (set s : Reading σ PUnit) := fun _ => .ok PUnit.unit

/-- A form is read in two parts, the state passing from one to the other. -/
theorem run_bind (x : Reading σ α) (f : α → Reading σ β) (s : σ) :
    (x >>= f).run s = match x.run s with
      | (.ok a, left) => (f a).run left
      | (.error error, left) => (.error error, left) := by
  show (match x.run s with
    | (result, left) => (ExceptT.bindCont f result : StateM σ _) left) = _
  rcases x.run s with ⟨_ | _, left⟩ <;> rfl

theorem Checks.bind {x : Reading σ α} {f : α → Reading σ β} (hx : Checks x)
    (hf : ∀ a, Checks (f a)) : Checks (x >>= f) := by
  intro s
  have hfirst := hx s
  rw [run_bind]
  rcases hended : x.run s with ⟨result, left⟩
  rw [hended] at hfirst
  cases result with
  | ok a => exact hf a left
  | error error => exact .error (hfirst error rfl)

theorem checks_refuse (form : Value) (fault : RequestFault) :
    Checks (Selector.refuse form fault : Reading σ α) := checks_throw ⟨_, _, rfl⟩

end Reading

namespace Selector

open Reading

variable {σ : Type}

theorem checks_ofTargets (members : List (String × Value)) (sub : Option Selector) :
    Checks (ofTargets members sub : Reading σ Selector) := by
  unfold ofTargets
  split
  · exact checks_pure _
  · split
    · exact checks_pure _
    · next error herror => exact checks_throw (Scope.failsOnly_ofMembers members error herror)
  · exact checks_refuse _ _
  · exact checks_refuse _ _
  · exact checks_refuse _ _

variable {readText : String → Reading σ Selector}

mutual

/-- A form of a selector is read, or it is malformed, if that holds of the written ones. -/
theorem checks_ofValueWith (htext : ∀ text, Checks (readText text)) :
    ∀ form : Value, Checks (ofValueWith readText form)
  | .string text => by
    rw [ofValueWith]
    exact htext text
  | .array items => by
    rw [ofValueWith]
    exact (checks_ofItems htext items).bind fun _ => checks_pure _
  | .object members => by
    rw [ofValueWith]
    exact (checks_ofSelectMember htext members).bind fun sub => checks_ofTargets members sub
  | .null => by
    rw [ofValueWith]
    exact checks_refuse _ _
  | .bool b => by
    rw [ofValueWith]
    exact checks_refuse _ _
  | .number n => by
    rw [ofValueWith]
    exact checks_refuse _ _

theorem checks_ofItems (htext : ∀ text, Checks (readText text)) :
    ∀ items : List Value, Checks (ofItems readText items)
  | [] => by
    rw [ofItems]
    exact checks_pure _
  | .array nested :: items => by
    rw [ofItems]
    exact (checks_ofItems htext nested).bind fun _ =>
      (checks_ofItems htext items).bind fun _ => checks_pure _
  | .null :: items | .bool _ :: items | .number _ :: items | .string _ :: items
  | .object _ :: items => by
    rw [ofItems]
    · exact (checks_ofValueWith htext _).bind fun _ =>
        (checks_ofItems htext items).bind fun _ => checks_pure _
    · nofun

theorem checks_ofSelectMember (htext : ∀ text, Checks (readText text)) :
    ∀ members : List (String × Value), Checks (ofSelectMember readText members)
  | [] => by
    rw [ofSelectMember]
    exact checks_pure _
  | (name, value) :: members => by
    rw [ofSelectMember]
    split
    · split
      · exact checks_pure _
      · exact (checks_ofValueWith htext value).bind fun _ => checks_pure _
    · exact checks_ofSelectMember htext members

end

end Selector

/-- A written selector is read, or it is malformed. -/
theorem Selector.failsOnly_read (text : String) : FailsOnly Malformed (Selector.read text) := by
  unfold Selector.read
  cases State.run (.before []) text.toList with
  | ok selector => exact .ok selector
  | error broken => exact .badSelector _ _

/-- So it is if selectors are remembered. -/
theorem SelectorCache.checks_read (text : String) : (SelectorCache.read text).Checks := by
  unfold SelectorCache.read
  refine Reading.checks_get.bind fun cache => ?_
  split
  · exact (Reading.checks_set _).bind fun _ => Reading.checks_pure _
  · split
    · exact (Reading.checks_set _).bind fun _ => Reading.checks_pure _
    · next error herror => exact Reading.checks_throw (Selector.failsOnly_read text error herror)

/-- A request is read, or it is malformed. -/
theorem SelectorCache.checks_requestOf (value : Value) :
    (SelectorCache.requestOf value).Checks := by
  unfold SelectorCache.requestOf
  cases value with
  | null => exact Reading.checks_pure _
  | object members =>
    refine (Selector.checks_ofSelectMember SelectorCache.checks_read members).bind fun select => ?_
    split
    · exact Reading.checks_pure _
    · next error herror =>
      exact Reading.checks_throw (Scope.failsOnly_ofMembers members error herror)
  | bool | number | string | array => exact Reading.checks_throw ⟨_, _, rfl⟩

/-! ## Plans -/

namespace Plan

mutual

/-- A plan is made of a selector, or two of its references do not agree. -/
theorem failsOnly_load : ∀ (selector : Selector) (p : Plan) (next : Nat),
    FailsOnly Malformed (load selector p next)
  | .wildcard, _, _ => .ok _
  | .field _, _, _ => .ok _
  | .list items, p, next => by
    rw [load]
    exact failsOnly_loadItems items p next
  | .one target sub, p, next => by
    rw [load]
    split
    · exact (failsOnly_loadSub sub _ _).map _
    · exact (failsOnly_loadSub sub _ _).map _
  | .many target sub scope, p, next => by
    rw [load]
    split
    · split
      · exact (failsOnly_loadSub sub _ _).map _
      · exact .badSelector _ _
    · exact (failsOnly_loadSub sub _ _).map _

theorem failsOnly_loadSub : ∀ (sub : Option Selector) (p : Plan) (next : Nat),
    FailsOnly Malformed (loadSub sub p next)
  | none, _, _ => .ok _
  | some selector, p, next => by
    rw [loadSub]
    exact failsOnly_load selector p next

theorem failsOnly_loadItems : ∀ (items : List Selector) (p : Plan) (next : Nat),
    FailsOnly Malformed (loadItems items p next)
  | [], _, _ => .ok _
  | item :: items, p, next => by
    rw [loadItems]
    have hitem := failsOnly_load item p next
    split
    · exact failsOnly_loadItems items _ _
    · next error herror => exact .error (hitem error herror)

end

theorem failsOnly_build (collection : String) (select : Option Selector) (scope : Scope) :
    FailsOnly Malformed (build collection select scope) := (failsOnly_loadSub select _ _).map _

end Plan

/-! ## Passes -/

namespace Pass

variable {p : Permission} {reply : (call : Call) → call.Answer}

/-- Led with these answers, from whatever memo, the step fails only where the caller is refused. -/
def OnlyForbids (reply : (call : Call) → call.Answer) {α : Type} (step : Pass α) : Prop :=
  ∀ memo, FailsOnly Forbidden (eval reply step memo).1

/-- Where the store answers all that the caller may ask, only the caller is refused. -/
theorem composed_onlyForbids (answers : ∀ call, p.Guarded call → ∃ found, reply call = .ok found) :
    Composed p fun step => OnlyForbids reply step where
  done a memo := .ok a
  refuse collection id memo := .error ⟨collection, id, rfl⟩
  look memo := .ok memo
  change f memo := .ok PUnit.unit
  ask call guarded memo := by
    obtain ⟨found, hfound⟩ := answers call guarded
    rw [eval_ask, hfound]
    exact .ok found
  bind {α β x f} hx hf memo := by
    have hfirst := hx memo
    rw [eval_bind]
    cases hended : eval reply x memo with
    | mk result left =>
      rw [hended] at hfirst
      cases result with
      | ok a => exact hf a left
      | error error => exact .error (hfirst error rfl)

end Pass

namespace Memory

/-- A store whose documents have ids answers, while it is online, all that a caller may ask. -/
theorem reply_guarded {m : Memory} (identified : m.Identified) (on : m.offline = false)
    {p : Permission} (call : Call) (guarded : p.Guarded call) :
    ∃ found, m.reply call = .ok found := by
  cases call with
  | get collection id projection => exact ⟨_, reply_get identified on collection id projection⟩
  | find collection filter projection =>
    exact ⟨_, reply_find identified on collection filter projection⟩
  | insert | update | remove | drop | collections => exact guarded.elim

end Memory

/-! ## Reads -/

namespace Query

variable {m : Memory} {p : Permission}

/-- A query fails because there is no plan or because its pass does. -/
theorem refused_of_withPlan {α β : Type} {plan : Except QueryError Plan} {step : Plan → Pass α}
    (hplan : FailsOnly Malformed plan) (hstep : ∀ plan, Pass.OnlyForbids m.reply (step plan))
    (write : Plan → Memo → α → β) :
    FailsOnly QueryError.Refused
      ((withPlan plan fun plan => do
        let (result, memo) ← (step plan).start .empty
        return result.map (write plan memo)).eval m.reply) := by
  cases plan with
  | error error => exact .error (.inl (hplan error rfl))
  | ok plan =>
    rw [eval_withPlan]
    exact ((hstep plan .empty).mono fun _ => .inr).map _

theorem refused_of_one (identified : m.Identified) (on : m.offline = false)
    (collection id : String) (request : Request) :
    FailsOnly QueryError.Refused ((one p collection id request).run Memory.answer m).1 := by
  rw [(m.run_eq_eval (reads_one p collection id request)).1]
  have answers : ∀ call, p.Guarded call → ∃ found, m.reply call = .ok found :=
    Memory.reply_guarded identified on
  exact refused_of_withPlan (Plan.failsOnly_build collection request.select .unrestricted)
    (fun plan => (Pass.composed_onlyForbids answers).one plan id)
    fun plan memo => Option.map (Answer.ofEntity memo plan request.select)

theorem refused_of_many (identified : m.Identified) (on : m.offline = false)
    (collection : String) (request : Request) :
    FailsOnly QueryError.Refused ((many p collection request).run Memory.answer m).1 := by
  rw [(m.run_eq_eval (reads_many p collection request)).1]
  have answers : ∀ call, p.Guarded call → ∃ found, m.reply call = .ok found :=
    Memory.reply_guarded identified on
  exact refused_of_withPlan (Plan.failsOnly_build collection request.select request.scope)
    (fun plan => (Pass.composed_onlyForbids answers).many plan none [])
    fun plan memo => List.map (Answer.ofEntity memo plan request.select)

end Query

/-- The request is malformed, or the caller may not see what it asks for. -/
def ManagerError.Refused (error : ManagerError) : Prop :=
  ∃ cause : QueryError, error = .query cause ∧ cause.Refused

/-- A refusal has the status of a bad request, or of one that is forbidden. -/
theorem ManagerError.Refused.status {error : ManagerError} (h : error.Refused) :
    error.status = 400 ∨ error.status = 403 := by
  obtain ⟨_, rfl, ⟨fragment, fault, rfl⟩ | ⟨collection, id, rfl⟩⟩ := h
  · exact .inl rfl
  · exact .inr rfl

namespace Manager

variable {m : Memory} {error : ManagerError}

/-- A read fails because its request does or because its query does. -/
theorem refused_of_reading {α : Type} {query : Request → Query.Outcome α}
    (hquery : ∀ r, FailsOnly QueryError.Refused ((query r).run Memory.answer m).1)
    {request : Value} {cache : SelectorCache}
    (h : ((reading request query cache).1.run Memory.answer m).1 = .error error) :
    error.Refused := by
  have hrequest := SelectorCache.checks_requestOf request cache
  unfold reading at h
  rcases hread : (SelectorCache.requestOf request).run cache with ⟨result, left⟩
  rw [hread] at h hrequest
  cases result with
  | error cause =>
    cases h
    exact ⟨cause, rfl, .inl (hrequest cause rfl)⟩
  | ok r =>
    dsimp only at h
    rw [Dialogue.run_bind, Dialogue.run_done] at h
    cases hended : ((query r).run Memory.answer m).1 with
    | ok a =>
      rw [hended] at h
      cases h
    | error cause =>
      rw [hended] at h
      cases h
      exact ⟨cause, rfl, hquery r cause hended⟩

/-- Reading a document fails only as a refusal. -/
theorem refused_of_get (identified : m.Identified) (on : m.offline = false) {p : Permission}
    {collection id : String} {request : Value} {cache : SelectorCache}
    (h : ((get p collection id request cache).1.run Memory.answer m).1 = .error error) :
    error.Refused :=
  refused_of_reading (Query.refused_of_one identified on collection id) h

/-- Reading a page fails only as a refusal. -/
theorem refused_of_list (identified : m.Identified) (on : m.offline = false) {p : Permission}
    {collection : String} {request : Value} {cache : SelectorCache}
    (h : ((list p collection request cache).1.run Memory.answer m).1 = .error error) :
    error.Refused :=
  refused_of_reading (Query.refused_of_many identified on collection) h

end Manager

end LinkedDocs
