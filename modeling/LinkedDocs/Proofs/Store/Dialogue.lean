import LinkedDocs.Store.Call

/-!
# Runs of dialogues

What a dialogue does is fixed by the answers that it gets. `Dialogue.eval` leads a dialogue with
answers that do not depend on the state, and `Dialogue.calls` lists the calls that it comes to then.
`Server.recording` writes down the calls that are made, and `Dialogue.observe` is the result of a
dialogue with them.

`Dialogue.OnlyAsks good` says that every call the dialogue can come to, whatever it was answered
before, passes a test. It is what two runs are compared by:

> `run_agree`: if two servers answer every good call alike, and this stays so from call to call,
> then a dialogue that asks good calls only ends with the same result on both.
-/

namespace LinkedDocs

/-- A server that writes down every call that it passes on, the latest last. -/
def Server.recording {σ : Type} (server : Server σ) : Server (List Call × σ) :=
  fun (calls, state) call =>
    let (answer, state) := server state call
    (answer, calls ++ [call], state)

namespace Call

/-- The call leaves the documents of the store alone. -/
def isRead : Call → Prop
  | .get .. | .find .. | .collections => True
  | .insert .. | .update .. | .remove .. | .drop .. => False

end Call

namespace Dialogue

variable {α β σ τ : Type}

/-- Leads a dialogue with answers that depend on the call alone. -/
def eval (reply : (call : Call) → call.Answer) : Dialogue α → α
  | .done result => result
  | .ask call next => (next (reply call)).eval reply

@[simp] theorem eval_done (reply : (call : Call) → call.Answer) (a : α) :
    (done a).eval reply = a := rfl

@[simp] theorem eval_ask (reply : (call : Call) → call.Answer) (c : Call)
    (next : c.Answer → Dialogue α) :
    (ask c next).eval reply = (next (reply c)).eval reply := rfl

/-- Leading a dialogue in two parts. -/
theorem eval_bind (reply : (call : Call) → call.Answer) (d : Dialogue α) (f : α → Dialogue β) :
    (d.bind f).eval reply = (f (d.eval reply)).eval reply := by
  induction d with
  | done => rfl
  | ask c next ih => simp [ih]

/-- The calls that a dialogue comes to with answers that depend on the call alone. -/
def calls (reply : (call : Call) → call.Answer) : Dialogue α → List Call
  | .done _ => []
  | .ask call next => call :: (next (reply call)).calls reply

/-- The calls of a dialogue in two parts. -/
theorem calls_bind (reply : (call : Call) → call.Answer) (d : Dialogue α) (f : α → Dialogue β) :
    (d.bind f).calls reply = d.calls reply ++ (f (d.eval reply)).calls reply := by
  induction d with
  | done => rfl
  | ask c next ih => rw [bind_ask, calls, calls, ih, List.cons_append, eval_ask]

/-- Every call that the dialogue can come to passes a test, whatever the answers. -/
def OnlyAsks (good : Call → Prop) : Dialogue α → Prop
  | .done _ => True
  | .ask call next => good call ∧ ∀ answer, (next answer).OnlyAsks good

variable {good : Call → Prop}

@[simp] theorem onlyAsks_done (a : α) : (done a).OnlyAsks good := trivial

@[simp] theorem onlyAsks_call {c : Call} : (call c).OnlyAsks good ↔ good c := by
  simp [call, OnlyAsks]

theorem OnlyAsks.bind {d : Dialogue α} {f : α → Dialogue β} (hd : d.OnlyAsks good)
    (hf : ∀ a, (f a).OnlyAsks good) : (d.bind f).OnlyAsks good := by
  induction d with
  | done a => exact hf a
  | ask c next ih => exact ⟨hd.1, fun answer => ih answer (hd.2 answer)⟩

theorem OnlyAsks.mono {good' : Call → Prop} (himp : ∀ c, good c → good' c) {d : Dialogue α}
    (hd : d.OnlyAsks good) : d.OnlyAsks good' := by
  induction d with
  | done => trivial
  | ask c next ih => exact ⟨himp c hd.1, fun answer => ih answer (hd.2 answer)⟩

/-- Two servers that answer good calls alike lead a dialogue of good calls to the same result, and
their states stay related. -/
theorem run_agree {server₁ : Server σ} {server₂ : Server τ} {related : σ → τ → Prop}
    (step : ∀ s t c, related s t → good c →
      (server₁ s c).1 = (server₂ t c).1 ∧ related (server₁ s c).2 (server₂ t c).2)
    {d : Dialogue α} (hd : d.OnlyAsks good) :
    ∀ {s : σ} {t : τ}, related s t →
      (d.run server₁ s).1 = (d.run server₂ t).1 ∧
        related (d.run server₁ s).2 (d.run server₂ t).2 := by
  induction d with
  | done a => exact fun h => ⟨rfl, h⟩
  | ask c next ih =>
    intro s t h
    obtain ⟨hanswer, hstate⟩ := step s t c h hd.1
    simp only [run]
    rw [hanswer]
    exact ih _ (hd.2 _) hstate

/-- A server that answers good calls as `reply` does, whatever came before, leads a dialogue of good
calls to the result that `reply` leads it to. -/
theorem run_eq_eval {server : Server σ} {reply : (call : Call) → call.Answer} {keeps : σ → Prop}
    (step : ∀ s c, keeps s → good c → (server s c).1 = reply c ∧ keeps (server s c).2)
    {d : Dialogue α} (hd : d.OnlyAsks good) :
    ∀ {s : σ}, keeps s → (d.run server s).1 = d.eval reply ∧ keeps (d.run server s).2 := by
  induction d with
  | done a => exact fun h => ⟨rfl, h⟩
  | ask c next ih =>
    intro s h
    obtain ⟨hanswer, hstate⟩ := step s c h hd.1
    simp only [run, eval_ask]
    rw [← hanswer]
    exact ih _ (hd.2 _) hstate

/-- The result of a dialogue with a server and the calls that reach the server. -/
def observe (server : Server σ) (s : σ) (d : Dialogue α) : α × List Call :=
  let (result, calls, _) := d.run server.recording ([], s)
  (result, calls)

end Dialogue

end LinkedDocs
