import LinkedDocs.Pass
import LinkedDocs.Proofs.Store.Dialogue

/-!
# Steps of a pass

A step of a pass is looked at in two ways. `Pass.eval` leads it with fixed answers from a memo and
gives its result with the memo it leaves, and `Pass.calls` the calls that it makes.
`Pass.OnlyAsks good` says that all calls the step can come to are good, from whatever memo it
starts. For each there is one lemma for each building block, so that later proofs never open the
layers of the monad.
-/

namespace LinkedDocs.Pass

variable {α β : Type}

/-! ## Starting a step -/

@[simp] theorem start_pure (a : α) (memo : Memo) :
    (pure a : Pass α).start memo = .done (.ok a, memo) := rfl

@[simp] theorem start_throw (error : QueryError) (memo : Memo) :
    (throw error : Pass α).start memo = .done (.error error, memo) := rfl

@[simp] theorem start_get (memo : Memo) :
    (get : Pass Memo).start memo = .done (.ok memo, memo) := rfl

@[simp] theorem start_modify (f : Memo → Memo) (memo : Memo) :
    (modify f : Pass PUnit).start memo = .done (.ok ⟨⟩, f memo) := rfl

/-- A step that depends on the result of another one; a failure is the end. -/
theorem start_bind (x : Pass α) (f : α → Pass β) (memo : Memo) :
    (x >>= f).start memo = (x.start memo).bind fun
      | (.ok a, memo) => (f a).start memo
      | (.error error, memo) => .done (.error error, memo) := by
  show Dialogue.bind _ _ = Dialogue.bind _ _
  congr 1
  funext r
  obtain ⟨result, left⟩ := r
  cases result <;> rfl

theorem start_ask (call : Call) (memo : Memo) :
    (ask call).start memo = .ask call fun
      | .ok reply => .done (.ok reply, memo)
      | .error error => .done (.error (.ofStore error), memo) := by
  show Dialogue.ask call _ = Dialogue.ask call _
  congr 1
  funext answer
  cases answer <;> rfl

/-! ## Leading a step with fixed answers -/

/-- The result of a step and the memo it leaves, with answers that depend on the call alone. -/
def eval (reply : (call : Call) → call.Answer) (step : Pass α) (memo : Memo) :
    Except QueryError α × Memo :=
  (step.start memo).eval reply

variable (reply : (call : Call) → call.Answer)

@[simp] theorem eval_pure (a : α) (memo : Memo) :
    eval reply (pure a) memo = (.ok a, memo) := rfl

@[simp] theorem eval_throw (error : QueryError) (memo : Memo) :
    eval reply (throw error : Pass α) memo = (.error error, memo) := rfl

@[simp] theorem eval_get (memo : Memo) : eval reply get memo = (.ok memo, memo) := rfl

@[simp] theorem eval_modify (f : Memo → Memo) (memo : Memo) :
    eval reply (modify f) memo = (.ok ⟨⟩, f memo) := rfl

theorem eval_bind (x : Pass α) (f : α → Pass β) (memo : Memo) :
    eval reply (x >>= f) memo =
      match eval reply x memo with
      | (.ok a, memo) => eval reply (f a) memo
      | (.error error, memo) => (.error error, memo) := by
  simp only [eval, start_bind, Dialogue.eval_bind]
  obtain ⟨result, left⟩ := (x.start memo).eval reply
  cases result <;> rfl

/-- A step that has succeeded after another one. -/
theorem of_eval_bind {x : Pass α} {f : α → Pass β} {memo left : Memo} {b : β}
    (h : eval reply (x >>= f) memo = (.ok b, left)) :
    ∃ a memo', eval reply x memo = (.ok a, memo') ∧ eval reply (f a) memo' = (.ok b, left) := by
  rw [eval_bind] at h
  cases hx : eval reply x memo with
  | mk result memo' =>
    rw [hx] at h
    cases result with
    | ok a => exact ⟨a, memo', rfl, h⟩
    | error error => cases h

theorem eval_ask (call : Call) (memo : Memo) :
    eval reply (ask call) memo = ((reply call).mapError .ofStore, memo) := by
  rw [eval, start_ask, Dialogue.eval_ask]
  cases reply call <;> rfl

/-- The calls of a step with such answers. -/
def calls (step : Pass α) (memo : Memo) : List Call := (step.start memo).calls reply

@[simp] theorem calls_pure (a : α) (memo : Memo) : calls reply (pure a) memo = [] := rfl

@[simp] theorem calls_get (memo : Memo) : calls reply get memo = [] := rfl

@[simp] theorem calls_modify (f : Memo → Memo) (memo : Memo) :
    calls reply (modify f) memo = [] := rfl

theorem calls_bind (x : Pass α) (f : α → Pass β) (memo : Memo) :
    calls reply (x >>= f) memo = calls reply x memo ++
      match eval reply x memo with
      | (.ok a, memo) => calls reply (f a) memo
      | (.error _, _) => [] := by
  simp only [calls, eval, start_bind, Dialogue.calls_bind]
  obtain ⟨result, left⟩ := (x.start memo).eval reply
  cases result <;> rfl

@[simp] theorem calls_ask (call : Call) (memo : Memo) : calls reply (ask call) memo = [call] := by
  rw [calls, start_ask, Dialogue.calls]
  cases reply call <;> rfl

/-! ## The calls that a step can come to -/

/-- All calls that the step can come to are good, from whatever memo. -/
def OnlyAsks (good : Call → Prop) (step : Pass α) : Prop :=
  ∀ memo, (step.start memo).OnlyAsks good

variable {good : Call → Prop}

theorem onlyAsks_pure (a : α) : OnlyAsks good (pure a : Pass α) := fun _ => trivial

theorem onlyAsks_throw (error : QueryError) : OnlyAsks good (throw error : Pass α) :=
  fun _ => trivial

theorem onlyAsks_get : OnlyAsks good (get : Pass Memo) := fun _ => trivial

theorem onlyAsks_modify (f : Memo → Memo) : OnlyAsks good (modify f : Pass PUnit) :=
  fun _ => trivial

theorem onlyAsks_ask {call : Call} (h : good call) : OnlyAsks good (ask call) := by
  intro memo
  rw [start_ask]
  refine ⟨h, fun answer => ?_⟩
  cases answer <;> trivial

theorem OnlyAsks.bind {x : Pass α} {f : α → Pass β} (hx : OnlyAsks good x)
    (hf : ∀ a, OnlyAsks good (f a)) : OnlyAsks good (x >>= f) := by
  intro memo
  rw [start_bind]
  refine (hx memo).bind fun r => ?_
  obtain ⟨result, left⟩ := r
  cases result with
  | ok a => exact hf a left
  | error error => trivial

/-! ## The pieces of a resolution -/

/-- Taking a step for what it does. -/
theorem discard_eq (x : Pass α) : discard x = x >>= fun _ => pure () := map_eq_pure_bind _ x

/-- The document of a node: from the memo, or else from the store. -/
def fetchOne (plan : Plan) (id : String) : Pass (Option Entity) := do
  match (← get).entity? plan.info.id id with
  | some entity =>
    modify fun m => { m with hits := m.hits + 1 }
    return entity
  | none =>
    modify fun m => { m with gets := m.gets + 1 }
    let entity ← ask (.get plan.info.collection id plan.projection)
    modify fun m => { m with entities := ((plan.info.id, id), entity) :: m.entities }
    return entity

theorem eval_fetchOne (plan : Plan) (id : String) (memo : Memo) :
    eval reply (fetchOne plan id) memo =
      match memo.entity? plan.info.id id with
      | some entity => (.ok entity, { memo with hits := memo.hits + 1 })
      | none =>
        match reply (.get plan.info.collection id plan.projection) with
        | .ok entity => (.ok entity, { memo with
            gets := memo.gets + 1
            entities := ((plan.info.id, id), entity) :: memo.entities })
        | .error error => (.error (.ofStore error), { memo with gets := memo.gets + 1 }) := by
  unfold fetchOne
  rw [eval_bind, eval_get]
  dsimp only
  cases memo.entity? plan.info.id id with
  | some entity => rfl
  | none =>
    dsimp only
    rw [eval_bind, eval_modify]
    dsimp only
    rw [eval_bind, eval_ask]
    cases reply (.get plan.info.collection id plan.projection) <;> rfl

theorem calls_fetchOne (plan : Plan) (id : String) (memo : Memo) :
    calls reply (fetchOne plan id) memo =
      match memo.entity? plan.info.id id with
      | some _ => []
      | none => [.get plan.info.collection id plan.projection] := by
  unfold fetchOne
  rw [calls_bind, calls_get, eval_get]
  dsimp only
  cases memo.entity? plan.info.id id with
  | some entity => rfl
  | none =>
    dsimp only
    rw [calls_bind, calls_modify, eval_modify]
    dsimp only
    rw [calls_bind, calls_ask, eval_ask]
    cases reply (.get plan.info.collection id plan.projection) <;> rfl

/-- Follows the references of a document that exists. -/
def follow (expand : Entity → Pass Unit) : Option Entity → Pass (Option Entity)
  | none => pure none
  | some e => do
    expand e
    return some e

/-- The page of a node from the store, the references of its documents followed. -/
def fetchPage (p : Permission) (plan : Plan) (expand : Entity → Pass Unit) (link : Filter) :
    Pass (List Entity) :=
  match p.narrow plan.info.collection (link ++ plan.info.scope.filter) with
  | .error error => throw error
  | .ok filter => do
    modify fun m => { m with finds := m.finds + 1 }
    let found : List Entity ← ask (.find plan.info.collection filter plan.projection)
    let page := plan.info.scope.window (plan.info.scope.order.sort found)
    forEach expand page
    return page

/-- The page of a node from the store. -/
def findPage (p : Permission) (plan : Plan) (link : Filter) : Pass (List Entity) :=
  match p.narrow plan.info.collection (link ++ plan.info.scope.filter) with
  | .error error => throw error
  | .ok filter => do
    modify fun m => { m with finds := m.finds + 1 }
    let found : List Entity ← ask (.find plan.info.collection filter plan.projection)
    return plan.info.scope.window (plan.info.scope.order.sort found)

theorem fetchPage_eq (p : Permission) (plan : Plan) (expand : Entity → Pass Unit) (link : Filter) :
    fetchPage p plan expand link = do
      let page ← findPage p plan link
      forEach expand page
      return page := by
  unfold fetchPage findPage
  cases p.narrow plan.info.collection (link ++ plan.info.scope.filter) with
  | error error => rfl
  | ok filter => simp only [bind_assoc, pure_bind]

theorem eval_findPage (p : Permission) (plan : Plan) (link : Filter) (memo : Memo) :
    eval reply (findPage p plan link) memo =
      match p.narrow plan.info.collection (link ++ plan.info.scope.filter) with
      | .error error => (.error error, memo)
      | .ok filter =>
        match reply (.find plan.info.collection filter plan.projection) with
        | .ok found => (.ok (plan.info.scope.window (plan.info.scope.order.sort found)),
            { memo with finds := memo.finds + 1 })
        | .error error => (.error (.ofStore error), { memo with finds := memo.finds + 1 }) := by
  unfold findPage
  cases p.narrow plan.info.collection (link ++ plan.info.scope.filter) with
  | error error => rfl
  | ok filter =>
    dsimp only
    rw [eval_bind, eval_modify]
    dsimp only
    rw [eval_bind, eval_ask]
    cases reply (.find plan.info.collection filter plan.projection) <;> rfl

theorem calls_findPage (p : Permission) (plan : Plan) (link : Filter) (memo : Memo) :
    calls reply (findPage p plan link) memo =
      match p.narrow plan.info.collection (link ++ plan.info.scope.filter) with
      | .error _ => []
      | .ok filter => [.find plan.info.collection filter plan.projection] := by
  unfold findPage
  cases p.narrow plan.info.collection (link ++ plan.info.scope.filter) with
  | error error => rfl
  | ok filter =>
    dsimp only
    rw [calls_bind, calls_modify, eval_modify]
    dsimp only
    rw [calls_bind, calls_ask, eval_ask]
    cases reply (.find plan.info.collection filter plan.projection) <;> rfl

theorem resolveOne_eq (p : Permission) (plan : Plan) (expand : Entity → Pass Unit) (id : String) :
    resolveOne p plan expand id =
      if p.check plan.info.collection id then fetchOne plan id >>= follow expand
      else throw (.forbidden plan.info.collection id) := by
  unfold resolveOne
  by_cases hcheck : p.check plan.info.collection id = true
  · simp only [if_pos hcheck, fetchOne, bind_assoc]
    refine bind_congr fun memo => ?_
    cases memo.entity? plan.info.id id with
    | some entity =>
      simp only [bind_assoc, pure_bind]
      refine bind_congr fun _ => ?_
      cases entity <;> rfl
    | none =>
      simp only [bind_assoc, pure_bind]
      refine bind_congr fun _ => bind_congr fun entity => bind_congr fun _ => ?_
      cases entity <;> rfl
  · simp only [if_neg hcheck]

theorem resolveMany_eq (p : Permission) (plan : Plan) (expand : Entity → Pass Unit)
    (parent : Option String) (link : Filter) :
    resolveMany p plan expand parent link = (do
      match (← get).page? plan.info.id parent with
      | some page =>
        modify fun m => { m with hits := m.hits + 1 }
        return page
      | none =>
        let page ← fetchPage p plan expand link
        modify fun m => { m with pages := ((plan.info.id, parent), page) :: m.pages }
        return page) := by
  unfold resolveMany
  refine bind_congr fun memo => ?_
  cases memo.page? plan.info.id parent with
  | some page => rfl
  | none =>
    unfold fetchPage
    cases p.narrow plan.info.collection (link ++ plan.info.scope.filter) with
    | error error => rfl
    | ok filter =>
      simp only [bind_assoc, pure_bind]

end LinkedDocs.Pass
