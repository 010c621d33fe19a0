import LinkedDocs.Proofs.Pass.Fetch
import Mathlib.Data.List.Perm.Basic
import Mathlib.Logic.Function.Basic

/-!
# The tasks of a pass

The references of a document and the documents of a page are resolved concurrently, each by a task
of its own. What is fetched at a node, and whether the references of a document have been followed
there, is kept in a `Cell`: the first task that comes to an empty cell reserves it and fills it
later, and a task that comes in between waits for it.

`Tasks` is what the tasks of a pass share, `Tasks.advance` what one of them does next, and
`Tasks.run` lets them take turns in any order. A task may be held up between any two turns, and the
answer to a call may be as late as it likes; this takes in every way in which the tasks can be
interleaved, and more. A resolution that finds its cell filled is a hit. One that has to reserve the
cell fetches. One that finds the cell reserved is given in the end what another one has fetched, and
is counted as neither (`Tasks.awaited`).

What a turn can do is said once, by the relation `Turn`:

> `step_cases`: a step leaves everything as it is, or one of the tasks takes a turn.
-/

namespace LinkedDocs

/-- A place that is filled once. -/
inductive Cell (α : Type) where
  | empty
  /-- A task is about to fill it. -/
  | reserved
  | filled (value : α)

/-- What a task is joined by: the caller of the pass, the fetch of the page that its document is on,
or the document whose reference it resolves. -/
inductive Joint where
  | caller
  | page (key : Nat × Slot)
  | document (key : Nat × String)
  deriving DecidableEq

/-- What a task goes on with. -/
inductive Work where
  /-- It has been asked to resolve something and looks whether it is there. -/
  | resolve (f : Fetch)
  /-- It was not there: the task reserves the cell, or waits for the one that has. -/
  | settle (f : Fetch)
  /-- It has reserved the cell and asks the store as soon as it may. -/
  | ask (f : Fetch)
  /-- Its call is in flight. -/
  | receive (f : Fetch)
  /-- It waits for the documents of its page before it fills the cell. -/
  | file (f : Fetch) (page : List Entity)
  /-- It follows the references of a document, unless this has been begun at the node. -/
  | expand (plan : Plan) (e : Entity)
  /-- It waits for the references of its document before it fills the cell. -/
  | finish (plan : Plan) (e : Entity)

/-- A task that is under way. -/
structure Task where
  joint : Joint
  work : Work

/-- Whether the call of the task is in flight. -/
def Task.isInFlight (task : Task) : Bool :=
  match task.work with
  | .receive _ => true
  | _ => false

namespace Fetch

/-- The refusal of a document that the caller may not see, which comes before anything else. -/
def refusal? (p : Permission) : Fetch → Option QueryError
  | .one node id =>
    if p.check node.info.collection id then none else some (.forbidden node.info.collection id)
  | .many .. => none

/-- What is left to do for a fetch that another one has made: the document that has been looked up
is expanded; the documents of a page have been expanded before the page was there. -/
def onward (f : Fetch) (joint : Joint) (found : List Entity) : List Task :=
  if f.isOne then found.map fun e => ⟨joint, .expand f.node e⟩ else []

/-- The documents of a page are expanded before the page is there for others. -/
def members (f : Fetch) (page : List Entity) : List Task :=
  page.map fun e => ⟨.page f.key, .expand f.node e⟩

end Fetch

/-- The references of a document are resolved, each by a task. -/
def Plan.resolvers (plan : Plan) (e : Entity) : List Task :=
  (plan.references e).map fun f => ⟨.document (plan.info.id, e.id), .resolve f⟩

/-- What the tasks of a pass share. -/
structure Tasks where
  live : List Task
  /-- Documents and pages, by node and slot. -/
  slots : Nat × Slot → Cell (List Entity)
  /-- Whether the references of a document have been followed, by node and id. -/
  expansions : Nat × String → Cell Unit
  calls : List Call
  gets : Nat
  finds : Nat
  hits : Nat
  /-- Resolutions that were given what another one has fetched in the meantime. -/
  awaited : Nat
  /-- Resolutions that have been asked for. -/
  invocations : Nat

namespace Tasks

/-- A pass that begins with a fetch. -/
def begin (start : Fetch) : Tasks where
  live := [⟨.caller, .resolve start⟩]
  slots _ := .empty
  expansions _ := .empty
  calls := []
  gets := 0
  finds := 0
  hits := 0
  awaited := 0
  invocations := 1

/-- How many calls are in flight. -/
def inFlight (t : Tasks) : Nat := t.live.countP Task.isInFlight

/-- Whether tasks with this joint are under way. -/
def joins (t : Tasks) (joint : Joint) : Bool := t.live.any fun task => decide (task.joint = joint)

/-- Adds tasks. -/
def add (t : Tasks) (tasks : List Task) : Tasks := { t with live := tasks ++ t.live }

/-- Writes to a cell for what is fetched. -/
def setSlot (t : Tasks) (key : Nat × Slot) (cell : Cell (List Entity)) : Tasks :=
  { t with slots := Function.update t.slots key cell }

/-- Writes to a cell for what has been followed. -/
def setExpansion (t : Tasks) (key : Nat × String) (cell : Cell Unit) : Tasks :=
  { t with expansions := Function.update t.expansions key cell }

/-- Counts a call to the store. -/
def countCall (t : Tasks) (f : Fetch) (call : Call) : Tasks :=
  { t with
    calls := t.calls ++ [call]
    gets := t.gets + [f].countP (·.isOne)
    finds := t.finds + [f].countP (!·.isOne) }

/-- Counts a hit. -/
def countHit (t : Tasks) : Tasks := { t with hits := t.hits + 1 }

/-- Counts a resolution that has waited for another one. -/
def countAwaited (t : Tasks) : Tasks := { t with awaited := t.awaited + 1 }

/-- Counts resolutions that are asked for. -/
def invoke (t : Tasks) (count : Nat) : Tasks := { t with invocations := t.invocations + count }

theorem slots_setSlot (t : Tasks) (key other : Nat × Slot) (cell : Cell (List Entity)) :
    (t.setSlot key cell).slots other = if other = key then cell else t.slots other :=
  Function.update_apply ..

theorem expansions_setExpansion (t : Tasks) (key other : Nat × String) (cell : Cell Unit) :
    (t.setExpansion key cell).expansions other = if other = key then cell else t.expansions other :=
  Function.update_apply ..

section Steps

variable (reply : (call : Call) → call.Answer) (p : Permission)

/-- What comes of the turn of a task, where `t` has the other tasks: the first failure ends the
pass, and nothing comes of it if the task has to wait. At most `limit` calls are in flight, or one
if the limit is zero. -/
def advance (limit : Nat) (t : Tasks) (joint : Joint) : Work → Except QueryError (Option Tasks)
  | .resolve f =>
    match f.refusal? p with
    | some error => .error error
    | none =>
      match t.slots f.key with
      | .filled found => .ok (some (t.countHit.add (f.onward joint found)))
      | .empty | .reserved => .ok (some (t.add [⟨joint, .settle f⟩]))
  | .settle f =>
    match t.slots f.key with
    | .empty => .ok (some ((t.setSlot f.key .reserved).add [⟨joint, .ask f⟩]))
    | .reserved => .ok none
    | .filled found => .ok (some (t.countAwaited.add (f.onward joint found)))
  | .ask f =>
    match f.call p with
    | .error error => .error error
    | .ok call =>
      if t.inFlight < max limit 1 then .ok (some ((t.countCall f call).add [⟨joint, .receive f⟩]))
      else .ok none
  | .receive f =>
    match f.found reply p with
    | .error error => .error error
    | .ok found =>
      if f.isOne then .ok (some ((t.setSlot f.key (.filled found)).add (f.onward joint found)))
      else .ok (some (t.add (f.members found ++ [⟨joint, .file f found⟩])))
  | .file f page =>
    if t.joins (.page f.key) then .ok none else .ok (some (t.setSlot f.key (.filled page)))
  | .expand plan e =>
    if plan.ones.isEmpty && plan.manys.isEmpty then .ok (some t)
    else
      match t.expansions (plan.info.id, e.id) with
      | .empty =>
        .ok (some (((t.setExpansion (plan.info.id, e.id) .reserved).invoke
          (plan.references e).length).add (plan.resolvers e ++ [⟨joint, .finish plan e⟩])))
      | .reserved => .ok none
      | .filled _ => .ok (some t)
  | .finish plan e =>
    if t.joins (.document (plan.info.id, e.id)) then .ok none
    else .ok (some (t.setExpansion (plan.info.id, e.id) (.filled ())))

/-- One of the tasks takes a turn. -/
def step (limit : Nat) (t : Tasks) (turn : Nat) : Except QueryError Tasks :=
  match t.live[turn]? with
  | none => .ok t
  | some task =>
    match advance reply p limit { t with live := t.live.eraseIdx turn } task.joint task.work with
    | .error error => .error error
    | .ok next => .ok (next.getD t)

/-- The tasks take turns. -/
def run (limit : Nat) (t : Tasks) (turns : List Nat) : Except QueryError Tasks :=
  turns.foldlM (step reply p limit) t

/-- What can come of the turn of a task, where `t` has the other tasks. -/
inductive Turn (t : Tasks) (joint : Joint) : Work → Tasks → Prop
  | hit {f : Fetch} {found : List Entity} (admitted : f.refusal? p = none)
    (filled : t.slots f.key = .filled found) :
    Turn t joint (.resolve f) (t.countHit.add (f.onward joint found))
  | miss {f : Fetch} (admitted : f.refusal? p = none)
    (unfilled : ∀ found, t.slots f.key ≠ .filled found) :
    Turn t joint (.resolve f) (t.add [⟨joint, .settle f⟩])
  | reserve {f : Fetch} (empty : t.slots f.key = .empty) :
    Turn t joint (.settle f) ((t.setSlot f.key .reserved).add [⟨joint, .ask f⟩])
  | await {f : Fetch} {found : List Entity} (filled : t.slots f.key = .filled found) :
    Turn t joint (.settle f) (t.countAwaited.add (f.onward joint found))
  | ask {f : Fetch} {call : Call} (called : f.call p = .ok call) :
    Turn t joint (.ask f) ((t.countCall f call).add [⟨joint, .receive f⟩])
  | receiveOne {f : Fetch} {found : List Entity} (one : f.isOne = true)
    (given : f.found reply p = .ok found) :
    Turn t joint (.receive f) ((t.setSlot f.key (.filled found)).add (f.onward joint found))
  | receiveMany {f : Fetch} {page : List Entity} (many : f.isOne = false)
    (given : f.found reply p = .ok page) :
    Turn t joint (.receive f) (t.add (f.members page ++ [⟨joint, .file f page⟩]))
  | file {f : Fetch} {page : List Entity} (joined : t.joins (.page f.key) = false) :
    Turn t joint (.file f page) (t.setSlot f.key (.filled page))
  | leaf {plan : Plan} {e : Entity} (none : plan.references e = []) :
    Turn t joint (.expand plan e) t
  | known {plan : Plan} {e : Entity} (filled : t.expansions (plan.info.id, e.id) = .filled ()) :
    Turn t joint (.expand plan e) t
  | expand {plan : Plan} {e : Entity} (empty : t.expansions (plan.info.id, e.id) = .empty) :
    Turn t joint (.expand plan e)
      (((t.setExpansion (plan.info.id, e.id) .reserved).invoke (plan.references e).length).add
        (plan.resolvers e ++ [⟨joint, .finish plan e⟩]))
  | finish {plan : Plan} {e : Entity}
    (joined : t.joins (.document (plan.info.id, e.id)) = false) :
    Turn t joint (.finish plan e) (t.setExpansion (plan.info.id, e.id) (.filled ()))

end Steps

variable {reply : (call : Call) → call.Answer} {p : Permission} {limit : Nat} {t t' : Tasks}
  {joint : Joint} {work : Work}

theorem turn_of_advance (h : advance reply p limit t joint work = .ok (some t')) :
    Turn reply p t joint work t' := by
  cases work with
  | resolve f =>
    rw [advance] at h
    split at h
    · cases h
    · next admitted =>
      split at h
      · next filled =>
        cases h
        exact .hit admitted filled
      · next empty =>
        cases h
        exact .miss admitted fun found => by simp [empty]
      · next reserved =>
        cases h
        exact .miss admitted fun found => by simp [reserved]
  | settle f =>
    rw [advance] at h
    split at h
    · next empty =>
      cases h
      exact .reserve empty
    · cases h
    · next filled =>
      cases h
      exact .await filled
  | ask f =>
    rw [advance] at h
    split at h
    · cases h
    · next called =>
      split at h
      · cases h
        exact .ask called
      · cases h
  | receive f =>
    rw [advance] at h
    split at h
    · cases h
    · next given =>
      split at h
      · next one =>
        cases h
        exact .receiveOne one given
      · next many =>
        cases h
        exact .receiveMany (eq_false_of_ne_true many) given
  | file f page =>
    rw [advance] at h
    split at h
    · cases h
    · next joined =>
      cases h
      exact .file (eq_false_of_ne_true joined)
  | expand plan e =>
    rw [advance] at h
    split at h
    · next leaf =>
      cases h
      exact .leaf (Plan.references_of_leaf leaf e)
    · split at h
      · next empty =>
        cases h
        exact .expand empty
      · cases h
      · next filled =>
        cases h
        exact .known filled
  | finish plan e =>
    rw [advance] at h
    split at h
    · cases h
    · next joined =>
      cases h
      exact .finish (eq_false_of_ne_true joined)

/-- **What a step can do**: nothing, or one of the tasks takes a turn. -/
theorem step_cases {turn : Nat} (h : t.step reply p limit turn = .ok t') :
    t' = t ∨ ∃ task others, t.live.Perm (task :: others) ∧
      Turn reply p { t with live := others } task.joint task.work t' := by
  unfold step at h
  split at h
  · cases h
    exact .inl rfl
  · next task there =>
    split at h
    · cases h
    · next next advanced =>
      cases h
      cases next with
      | none => exact .inl rfl
      | some t' =>
        obtain ⟨hlt, rfl⟩ := List.getElem?_eq_some_iff.mp there
        refine .inr ⟨t.live[turn], t.live.eraseIdx turn, ?_, turn_of_advance advanced⟩
        exact (List.getElem_cons_eraseIdx_perm hlt).symm

/-- What holds at the start and is kept by every step holds at the end. -/
theorem run_induction {motive : Tasks → Prop} {turns : List Nat}
    (step : ∀ {t t' : Tasks} {turn : Nat},
      t.step reply p limit turn = .ok t' → motive t → motive t')
    (h : t.run reply p limit turns = .ok t') (start : motive t) : motive t' := by
  induction turns generalizing t with
  | nil =>
    cases h
    exact start
  | cons turn rest ih =>
    unfold run at h
    rw [List.foldlM_cons] at h
    cases hstep : t.step reply p limit turn with
    | error error =>
      rw [hstep] at h
      cases h
    | ok between =>
      rw [hstep] at h
      exact ih h (step hstep start)

end Tasks

end LinkedDocs
