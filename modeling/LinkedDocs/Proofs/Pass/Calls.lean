import LinkedDocs.Proofs.Pass.Composition
import LinkedDocs.Query

/-!
# What a pass asks the store for

A pass asks for single documents and for searches, and only within what the caller may see: a single
document has passed the check, and a search lets nothing through that would not pass it
(`Permission.Guarded`). This holds of every call that a pass can come to, whatever the store has
answered before, and so of every query (`Query.onlyAsks_one`, `Query.onlyAsks_many`). So a query
reads only, and goes as fixed answers lead it.
-/

namespace LinkedDocs

theorem Permission.Guarded.isRead {p : Permission} {call : Call} (h : p.Guarded call) :
    call.isRead := by
  cases call with
  | get | find | collections => trivial
  | insert | update | remove | drop => exact h.elim

/-- Steps that are put together from guarded calls come to guarded calls only. -/
theorem Pass.composed_onlyAsks (p : Permission) :
    Composed p fun step => OnlyAsks p.Guarded step where
  done := onlyAsks_pure
  refuse _ _ := onlyAsks_throw _
  look := onlyAsks_get
  change := onlyAsks_modify
  ask _ := onlyAsks_ask
  bind := OnlyAsks.bind

namespace Query

variable (p : Permission)

/-- Reading one document asks for nothing but what the caller may see. -/
theorem onlyAsks_one (collection id : String) (request : Request) :
    (one p collection id request).OnlyAsks p.Guarded := by
  unfold one withPlan
  split
  · next plan hplan =>
    refine Dialogue.OnlyAsks.bind ?_ fun _ => trivial
    exact (Pass.composed_onlyAsks p).one plan id .empty
  · trivial

/-- Reading a page asks for nothing but what the caller may see. -/
theorem onlyAsks_many (collection : String) (request : Request) :
    (many p collection request).OnlyAsks p.Guarded := by
  unfold many withPlan
  split
  · next plan hplan =>
    refine Dialogue.OnlyAsks.bind ?_ fun _ => trivial
    exact (Pass.composed_onlyAsks p).many plan none [] .empty
  · trivial

theorem reads_one (collection id : String) (request : Request) :
    (one p collection id request).OnlyAsks Call.isRead :=
  (onlyAsks_one p collection id request).mono fun _ guarded => guarded.isRead

theorem reads_many (collection : String) (request : Request) :
    (many p collection request).OnlyAsks Call.isRead :=
  (onlyAsks_many p collection request).mono fun _ guarded => guarded.isRead

/-- What comes out of a query for which there is a plan is written from the memo of its pass. -/
theorem eval_withPlan {α β : Type} {reply : (call : Call) → call.Answer} {plan : Plan}
    {step : Plan → Pass α} (write : Plan → Memo → α → β) :
    (withPlan (.ok plan) fun plan => do
      let (result, memo) ← (step plan).start .empty
      return result.map (write plan memo)).eval reply
      = (Pass.eval reply (step plan) .empty).1.map
          (write plan (Pass.eval reply (step plan) .empty).2) := by
  simp only [withPlan, Dialogue.bind_eq, Dialogue.eval_bind]
  rfl

variable {p} {reply : (call : Call) → call.Answer} {collection : String} {request : Request}
  {plan : Plan}

/-- The answer for one document is written from what its pass leaves. -/
theorem eval_one (h : Plan.build collection request.select .unrestricted = .ok plan) (id : String) :
    (one p collection id request).eval reply
      = (Pass.eval reply (Pass.one p plan id) .empty).1.map (Option.map (Answer.ofEntity
          (Pass.eval reply (Pass.one p plan id) .empty).2 plan request.select)) := by
  rw [one, h]
  exact eval_withPlan fun plan memo => Option.map (Answer.ofEntity memo plan request.select)

/-- The answer for a page is written from what its pass leaves. -/
theorem eval_many (h : Plan.build collection request.select request.scope = .ok plan) :
    (many p collection request).eval reply
      = (Pass.eval reply (Pass.many p plan none []) .empty).1.map (List.map (Answer.ofEntity
          (Pass.eval reply (Pass.many p plan none []) .empty).2 plan request.select)) := by
  rw [many, h]
  exact eval_withPlan fun plan memo => List.map (Answer.ofEntity memo plan request.select)

end Query

end LinkedDocs
