import LinkedDocs.Store.Call

/-!
# Stores that fail

`Server.failingAt n error` answers like the server it wraps, except that the `n`-th call, counted
from one, fails with the error and does not reach the server.

Any number of calls fail in `Server.unreliable faults`. A call may fail there before it reaches the
server or after the server has carried it out, which the caller cannot tell apart.
-/

namespace LinkedDocs

/-- The server whose `n`-th call fails before it reaches the server behind. The state counts the
calls made so far. -/
def Server.failingAt {σ : Type} (server : Server σ) (n : Nat) (error : StoreError) :
    Server (Nat × σ) := fun (calls, state) call =>
  if calls + 1 = n then (.error error, calls + 1, state)
  else
    let (answer, state) := server state call
    (answer, calls + 1, state)

namespace Server

variable {σ : Type}

theorem failingAt_eq (server : Server σ) (n calls : Nat) (fault : StoreError)
    (s : σ) (call : Call) :
    server.failingAt n fault (calls, s) call =
      if calls + 1 = n then (.error fault, calls + 1, s)
      else ((server s call).1, calls + 1, (server s call).2) := rfl

/-- A call that fails is the one that was to fail, or the server behind has failed. -/
theorem failingAt_error {server : Server σ} {n calls calls' : Nat}
    {fault cause : StoreError} {s s' : σ} {call : Call}
    (h : server.failingAt n fault (calls, s) call = (.error cause, (calls', s'))) :
    (calls + 1 = n ∧ cause = fault ∧ s' = s) ∨ server s call = (.error cause, s') := by
  rw [failingAt_eq] at h
  split at h
  · next hn =>
    cases h
    exact .inl ⟨hn, rfl, rfl⟩
  · obtain ⟨hanswer, -, hstate⟩ : (server s call).1 = .error cause ∧ calls + 1 = calls' ∧
        (server s call).2 = s' := by simpa using h
    exact .inr (Prod.ext hanswer hstate)

/-- A call that succeeds has reached the server behind. -/
theorem failingAt_ok {server : Server σ} {n calls calls' : Nat}
    {fault : StoreError} {s s' : σ} {call : Call} {reply : call.Reply}
    (h : server.failingAt n fault (calls, s) call = (.ok reply, (calls', s'))) :
    calls' = calls + 1 ∧ server s call = (.ok reply, s') := by
  rw [failingAt_eq] at h
  split at h
  · cases h
  · obtain ⟨hanswer, hcalls, hstate⟩ : (server s call).1 = .ok reply ∧ calls + 1 = calls' ∧
        (server s call).2 = s' := by simpa using h
    exact ⟨hcalls.symm, Prod.ext hanswer hstate⟩

/-- The failure of a call. -/
structure Fault where
  error : StoreError
  /-- The server has carried the call out before it failed. -/
  late : Bool

/-- The server whose calls fail where there is a fault for their number, counted from one. The state
counts the calls made so far. -/
def unreliable (server : Server σ) (faults : Nat → Option Fault) : Server (Nat × σ) :=
  fun (calls, state) call =>
    let (answer, after) := server state call
    match faults (calls + 1) with
    | none => (answer, calls + 1, after)
    | some fault => (.error fault.error, calls + 1, if fault.late then after else state)

end Server

end LinkedDocs
