import LinkedDocs.Manager
import LinkedDocs.Proofs.Pass.Step
import LinkedDocs.Store.Fault
import LinkedDocs.Store.Memory

/-!
# Steps of a write

`Write.lead` leads a step of a write with a server, from the announcements made so far. For each
building block a lemma says how it ends; `lead_bind_error` and `lead_bind_ok` take a step that is
made of two apart, so that later proofs walk along a write without opening the layers of the monad.

The one query that a write of a collection makes is a single search for everything (`loadAll_eq`).
-/

namespace LinkedDocs

namespace Write

variable {α β σ : Type}

/-- The result of a step, the announcements up to its end, and the state of the server then. -/
def lead (server : Server σ) (w : Write α) (announced : List Notification) (s : σ) :
    (Except ManagerError α × List Notification) × σ :=
  ((w.run).run announced).run server s

variable (server : Server σ) (announced : List Notification) (s : σ)

theorem run_start (w : Write α) : w.start.run server s = lead server w [] s := rfl

@[simp] theorem lead_pure (a : α) :
    lead server (pure a) announced s = ((.ok a, announced), s) := rfl

@[simp] theorem lead_throw (error : ManagerError) :
    lead server (throw error : Write α) announced s = ((.error error, announced), s) := rfl

@[simp] theorem lead_announce (more : List Notification) :
    lead server (announce more) announced s = ((.ok ⟨⟩, announced ++ more), s) := rfl

theorem lead_check (checked : Except BodyFault α) :
    lead server (check checked) announced s
      = ((checked.mapError .badRequest, announced), s) := by
  cases checked <;> rfl

theorem lead_bind (w : Write α) (f : α → Write β) :
    lead server (w >>= f) announced s =
      match lead server w announced s with
      | ((.ok a, announced), s) => lead server (f a) announced s
      | ((.error error, announced), s) => ((.error error, announced), s) := by
  show (Dialogue.bind ((w.run).run announced) _).run server s = _
  rw [Dialogue.run_bind, lead]
  generalize ((w.run).run announced).run server s = ended
  obtain ⟨⟨result, left⟩, s'⟩ := ended
  cases result <;> rfl

theorem lead_ask (call : Call) :
    lead server (ask call) announced s
      = (((server s call).1.mapError .store, announced), (server s call).2) := by
  show (Dialogue.ask call _).run server s = _
  rw [Dialogue.run]
  generalize server s call = answered
  obtain ⟨answer, s'⟩ := answered
  cases answer <;> rfl

theorem lead_query (outcome : Query.Outcome α) :
    lead server (query outcome) announced s
      = (((outcome.run server s).1.mapError .query, announced), (outcome.run server s).2) := by
  show (Dialogue.bind (Dialogue.bind (Dialogue.bind outcome _) _) _).run server s = _
  rw [Dialogue.run_bind, Dialogue.run_bind, Dialogue.run_bind]
  generalize outcome.run server s = ended
  obtain ⟨result, s'⟩ := ended
  cases result <;> rfl

variable {server announced s} {w : Write α} {f : α → Write β} {announced' : List Notification}
  {s' : σ}

/-- A write that fails does so in its first step or after it. -/
theorem lead_bind_error {error : ManagerError}
    (h : lead server (w >>= f) announced s = ((.error error, announced'), s')) :
    lead server w announced s = ((.error error, announced'), s') ∨
      ∃ a between t, lead server w announced s = ((.ok a, between), t) ∧
        lead server (f a) between t = ((.error error, announced'), s') := by
  rw [lead_bind] at h
  cases hw : lead server w announced s with
  | mk ended t =>
    obtain ⟨result, between⟩ := ended
    rw [hw] at h
    cases result with
    | error error' =>
      obtain ⟨⟨rfl, rfl⟩, rfl⟩ : (error' = error ∧ between = announced') ∧ t = s' := by
        simpa using h
      exact .inl rfl
    | ok a => exact .inr ⟨a, between, t, rfl, h⟩

/-- A step that passes on what something else ends with fails as that fails. -/
theorem ended_error {ε : Type} {f : ε → ManagerError} (ended : Except ε α × σ)
    {error : ManagerError}
    (h : ((ended.1.mapError f, announced), ended.2) = ((.error error, announced'), s')) :
    announced' = announced ∧ ∃ cause, ended = (.error cause, s') ∧ error = f cause := by
  obtain ⟨result, t⟩ := ended
  cases result with
  | error cause =>
    cases h
    exact ⟨rfl, cause, rfl, rfl⟩
  | ok a => cases h

/-- A step that passes on what something else ends with succeeds as that succeeds. -/
theorem ended_ok {ε : Type} {f : ε → ManagerError} (ended : Except ε α × σ) {a : α}
    (h : ((ended.1.mapError f, announced), ended.2) = ((.ok a, announced'), s')) :
    announced' = announced ∧ ended = (.ok a, s') := by
  obtain ⟨result, t⟩ := ended
  cases result with
  | error cause => cases h
  | ok a =>
    cases h
    exact ⟨rfl, rfl⟩

theorem lead_ask_error {call : Call} {error : ManagerError}
    (h : lead server (ask call) announced s = ((.error error, announced'), s')) :
    announced' = announced ∧ ∃ cause, server s call = (.error cause, s') ∧ error = .store cause :=
  ended_error _ ((lead_ask server announced s call).symm.trans h)

theorem lead_ask_ok {call : Call} {reply : call.Reply}
    (h : lead server (ask call) announced s = ((.ok reply, announced'), s')) :
    announced' = announced ∧ server s call = (.ok reply, s') :=
  ended_ok _ ((lead_ask server announced s call).symm.trans h)

theorem lead_check_error {checked : Except BodyFault α} {error : ManagerError}
    (h : lead server (check checked) announced s = ((.error error, announced'), s')) :
    announced' = announced ∧ s' = s := by
  obtain ⟨rfl, cause, hcause, -⟩ :=
    ended_error (checked, s) ((lead_check server announced s checked).symm.trans h)
  cases hcause
  exact ⟨rfl, rfl⟩

theorem lead_check_ok {checked : Except BodyFault α} {a : α}
    (h : lead server (check checked) announced s = ((.ok a, announced'), s')) :
    announced' = announced ∧ s' = s ∧ checked = .ok a := by
  obtain ⟨rfl, hok⟩ :=
    ended_ok (checked, s) ((lead_check server announced s checked).symm.trans h)
  cases hok
  exact ⟨rfl, rfl, rfl⟩

end Write

namespace Pass

theorem forEach_pure {α : Type} (items : List α) : forEach (fun _ => pure ()) items = pure () := by
  induction items with
  | nil => rfl
  | cons item items ih => rw [forEach, ih, pure_bind]

/-- Below a node without references nothing is followed. -/
theorem expand_leaf (p : Permission) (info : PlanNode) (e : Entity) :
    expand p (.node info [] []) e = pure () := by
  rw [expand]
  rfl

end Pass

namespace Query

/-- Loading a collection is one search for everything. -/
theorem loadAll_eq (collection : String) :
    loadAll collection = .ask (.find collection [] .all) fun answer =>
      .done (answer.mapError .ofStore) := by
  have hexpand : Pass.expand .unrestricted (Plan.leaf 0 collection .unrestricted).readAll
      = fun _ => pure () := funext fun e => Pass.expand_leaf .unrestricted _ e
  show Dialogue.bind
    ((Pass.resolveMany .unrestricted (Plan.leaf 0 collection .unrestricted).readAll
      (Pass.expand .unrestricted (Plan.leaf 0 collection .unrestricted).readAll) none []).start
        .empty) _ = _
  rw [hexpand, Pass.resolveMany_eq]
  simp only [Pass.fetchPage, Pass.forEach_pure, Pass.start_bind, Pass.start_get, Dialogue.bind_done]
  show Dialogue.ask (.find collection [] .all) _ = Dialogue.ask (.find collection [] .all) _
  congr 1
  funext answer
  cases answer with
  | error error => rfl
  | ok found =>
    show Dialogue.done (Except.ok (Scope.unrestricted.window (Order.sort [] found))) = _
    rw [Order.sort_nil, Scope.window_unrestricted]
    rfl

/-- Loading a document is one look for it. -/
theorem load_eq (collection id : String) :
    load collection id = .ask (.get collection id .all) fun answer =>
      .done (answer.mapError .ofStore) := by
  generalize hplan : (Plan.leaf 0 collection .unrestricted).readAll = plan
  have hexpand : Pass.expand .unrestricted plan = fun _ => pure () := by
    subst hplan
    exact funext fun e => Pass.expand_leaf .unrestricted _ e
  have hone : Pass.one .unrestricted plan id
      = Pass.fetchOne plan id >>= Pass.follow fun _ => pure () := by
    rw [Pass.one, hexpand, Pass.resolveOne_eq]
    exact if_pos rfl
  have hload : load collection id
      = ((Pass.one .unrestricted plan id).start .empty).bind fun ended => .done ended.1 := by
    subst hplan
    rfl
  rw [hload, hone, Pass.start_bind]
  subst hplan
  show Dialogue.ask (.get collection id .all) _ = Dialogue.ask (.get collection id .all) _
  congr 1
  funext answer
  cases answer with
  | error error => rfl
  | ok found => cases found <;> rfl

end Query

namespace Write

variable {σ : Type} {server : Server σ} {announced announced' : List Notification} {s s' : σ}
  {collection : String}

theorem lead_loadAll :
    lead server (query (Query.loadAll collection)) announced s
      = (((server s (.find collection [] .all)).1.mapError fun cause => .query (.ofStore cause),
          announced),
        (server s (.find collection [] .all)).2) := by
  rw [lead_query, Query.loadAll_eq, Dialogue.run]
  generalize server s (.find collection [] .all) = answered
  obtain ⟨answer, t⟩ := answered
  cases answer <;> rfl

theorem lead_loadAll_error {error : ManagerError}
    (h : lead server (query (Query.loadAll collection)) announced s
      = ((.error error, announced'), s')) :
    announced' = announced ∧
      ∃ cause, server s (.find collection [] .all) = (.error cause, s') ∧
        error = .query (.ofStore cause) :=
  ended_error _ (lead_loadAll.symm.trans h)

theorem lead_loadAll_ok {entities : List Entity}
    (h : lead server (query (Query.loadAll collection)) announced s
      = ((.ok entities, announced'), s')) :
    announced' = announced ∧ server s (.find collection [] .all) = (.ok entities, s') :=
  ended_ok _ (lead_loadAll.symm.trans h)

end Write

end LinkedDocs
