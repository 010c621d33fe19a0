import LinkedDocs.Proofs.Pass.Progress
import Mathlib.Data.List.Perm.Basic

/-!
# What a pass that goes by a schedule comes to

A scheduled step is led with fixed answers. It ends well (`Scheduled.Leads`) or fails
(`Scheduled.Fails`). `Goes` is the form of the statements about steps: if the step ends well, it has
made progress and a condition holds of its result and the memo it leaves, and if it fails, this is
because it had to. For each building block there is one lemma of this form, `Goes.bind` for steps
one after the other; only a fetch is taken apart, since it is counted before and filed after what
it leads to.

> `goes_resolveBy`: whatever the schedule, resolving a needed fetch fails only if something that is
> needed from there on fails, and otherwise completes it.

The induction is on the plan. The schedule comes in at one place, where a list is visited
(`goes_visit`): all its steps are taken, and nothing is said of the order.
-/

namespace LinkedDocs

/-- A moment of a pass that goes by a schedule. -/
@[ext] structure Stage where
  memo : Memo
  course : Course

/-- The moment after a resolution has been counted. -/
def Stage.resolving (s : Stage) : Stage :=
  ⟨s.memo, ⟨s.course.visits, s.course.resolutions + 1⟩⟩

/-- The moment after it has been counted that a list is visited. -/
def Stage.visiting (s : Stage) : Stage := ⟨s.memo, ⟨s.course.visits + 1, s.course.resolutions⟩⟩

namespace Scheduled

section Leads

variable (reply : (call : Call) → call.Answer) {α : Type}

/-- From the moment `s` the step ends well: with a result, at a later moment and after calls. -/
def Leads (x : Scheduled α) (s : Stage) (a : α) (s' : Stage) (calls : List Call) : Prop :=
  Pass.eval reply (x.run s.course) s.memo = (.ok (a, s'.course), s'.memo) ∧
    Pass.calls reply (x.run s.course) s.memo = calls

/-- From the moment `s` the step fails. -/
def Fails (x : Scheduled α) (s : Stage) : Prop :=
  ∃ error memo, Pass.eval reply (x.run s.course) s.memo = (.error error, memo)

end Leads

variable {reply : (call : Call) → call.Answer} {α β : Type} {s s' : Stage} {calls : List Call}

theorem Leads.of_pure {a b : α} (h : Leads reply (pure a) s b s' calls) :
    b = a ∧ s' = s ∧ calls = [] := by
  obtain ⟨heval, hcalls⟩ := h
  obtain ⟨memo, course⟩ := s
  obtain ⟨memo', course'⟩ := s'
  cases heval
  exact ⟨rfl, rfl, hcalls.symm⟩

theorem not_fails_pure (a : α) : ¬ Fails reply (pure a : Scheduled α) s := by
  rintro ⟨error, memo, heval⟩
  cases heval

theorem not_leads_throw {error : QueryError} {a : α} :
    ¬ Leads reply (throw error : Scheduled α) s a s' calls := by
  rintro ⟨heval, -⟩
  cases heval

theorem Leads.of_bind {x : Scheduled α} {f : α → Scheduled β} {b : β}
    (h : Leads reply (x >>= f) s b s' calls) :
    ∃ a s₁ calls₁ calls₂, Leads reply x s a s₁ calls₁ ∧ Leads reply (f a) s₁ b s' calls₂ ∧
      calls = calls₁ ++ calls₂ := by
  obtain ⟨heval, hcalls⟩ := h
  rw [StateT.run_bind, Pass.eval_bind] at heval
  rw [StateT.run_bind, Pass.calls_bind] at hcalls
  cases hfirst : Pass.eval reply (x.run s.course) s.memo with
  | mk result memo =>
    rw [hfirst] at heval hcalls
    cases result with
    | error error => cases heval
    | ok ended =>
      exact ⟨ended.1, ⟨memo, ended.2⟩, _, _, ⟨hfirst, rfl⟩, ⟨heval, rfl⟩, hcalls.symm⟩

/-- A resolution is counted first. -/
theorem leads_count {x : Scheduled α} {a : α} :
    Leads reply (countResolution >>= fun _ => x) s a s' calls ↔
      Leads reply x s.resolving a s' calls := Iff.rfl

theorem fails_count {x : Scheduled α} :
    Fails reply (countResolution >>= fun _ => x) s ↔ Fails reply x s.resolving := Iff.rfl

theorem Fails.of_bind {x : Scheduled α} {f : α → Scheduled β} (h : Fails reply (x >>= f) s) :
    Fails reply x s ∨ ∃ a s₁ calls, Leads reply x s a s₁ calls ∧ Fails reply (f a) s₁ := by
  obtain ⟨error, memo', heval⟩ := h
  rw [StateT.run_bind, Pass.eval_bind] at heval
  cases hfirst : Pass.eval reply (x.run s.course) s.memo with
  | mk result memo =>
    rw [hfirst] at heval
    cases result with
    | error error => exact .inl ⟨error, memo, hfirst⟩
    | ok ended => exact .inr ⟨ended.1, ⟨memo, ended.2⟩, _, ⟨hfirst, rfl⟩, error, memo', heval⟩

theorem Leads.of_lift {step : Pass α} {a : α} (h : Leads reply (StateT.lift step) s a s' calls) :
    Pass.eval reply step s.memo = (.ok a, s'.memo) ∧ s'.course = s.course ∧
      Pass.calls reply step s.memo = calls := by
  obtain ⟨heval, hcalls⟩ := h
  rw [StateT.run_lift, Pass.eval_bind] at heval
  rw [StateT.run_lift, Pass.calls_bind] at hcalls
  cases hstep : Pass.eval reply step s.memo with
  | mk result memo =>
    rw [hstep] at heval hcalls
    cases result with
    | error error => cases heval
    | ok b =>
      dsimp only at heval
      rw [Pass.eval_pure, Prod.mk.injEq, Except.ok.injEq, Prod.mk.injEq] at heval
      obtain ⟨⟨rfl, hcourse⟩, rfl⟩ := heval
      refine ⟨rfl, hcourse.symm, ?_⟩
      rw [← hcalls]
      exact (List.append_nil _).symm

/-- The memo is looked at first. -/
theorem leads_look {f : Memo → Scheduled α} {a : α} :
    Leads reply (StateT.lift get >>= f) s a s' calls ↔ Leads reply (f s.memo) s a s' calls :=
  Iff.rfl

theorem fails_look {f : Memo → Scheduled α} :
    Fails reply (StateT.lift get >>= f) s ↔ Fails reply (f s.memo) s := Iff.rfl

/-- The memo is changed first. -/
theorem leads_change {change : Memo → Memo} {x : Scheduled α} {a : α} :
    Leads reply (StateT.lift (modify change) >>= fun _ => x) s a s' calls ↔
      Leads reply x ⟨change s.memo, s.course⟩ a s' calls := Iff.rfl

theorem fails_change {change : Memo → Memo} {x : Scheduled α} :
    Fails reply (StateT.lift (modify change) >>= fun _ => x) s ↔
      Fails reply x ⟨change s.memo, s.course⟩ := Iff.rfl

/-- A step that changes the memo. -/
theorem Leads.of_change {f : Memo → Memo} {u : PUnit}
    (h : Leads reply (StateT.lift (modify f)) s u s' calls) :
    s' = ⟨f s.memo, s.course⟩ ∧ calls = [] := by
  obtain ⟨heval, hcourse, rfl⟩ := h.of_lift
  rw [Pass.eval_modify, Prod.mk.injEq] at heval
  exact ⟨Stage.ext heval.2.symm hcourse, rfl⟩

theorem Fails.of_lift {step : Pass α} (h : Fails reply (StateT.lift step) s) :
    ∃ error memo, Pass.eval reply step s.memo = (.error error, memo) := by
  obtain ⟨error, memo', heval⟩ := h
  rw [StateT.run_lift, Pass.eval_bind] at heval
  cases hstep : Pass.eval reply step s.memo with
  | mk result memo =>
    rw [hstep] at heval
    cases result with
    | error error => exact ⟨error, memo, rfl⟩
    | ok b => cases heval

theorem not_fails_change (f : Memo → Memo) : ¬ Fails reply (StateT.lift (modify f)) s := by
  intro h
  obtain ⟨error, memo, heval⟩ := h.of_lift
  cases heval

end Scheduled

open Scheduled (Leads Fails)

section Goes

variable (reply : (call : Call) → call.Answer) (p : Permission) (start : Fetch)

/-- No fetch that is needed from this one on fails. -/
def Fetch.Succeeds (f : Fetch) : Prop :=
  ∀ g, Needed reply p f g → ∃ found, g.found reply p = .ok found

/-- If the step ends well, it has made progress, and `good` holds of the result and the memo that is
left; it fails only if not all is `fine`. -/
structure Goes {α : Type} (nodes : List Nat) (s : Stage) (x : Scheduled α) (good : α → Memo → Prop)
    (fine : Prop) : Prop where
  ends : ∀ {a s' calls}, Leads reply x s a s' calls →
    good a s'.memo ∧ Progress reply p start nodes s.memo s'.memo
  fails : Fails reply x s → ¬ fine

end Goes

variable {reply : (call : Call) → call.Answer} {p : Permission} {start : Fetch} {α β : Type}
  {nodes : List Nat} {s : Stage}

theorem Fetch.Succeeds.next {f g : Fetch} (h : f.Succeeds reply p) {found : List Entity}
    {e : Entity} (hfound : f.found reply p = .ok found) (he : e ∈ found)
    (hg : g ∈ f.node.references e) : g.Succeeds reply p :=
  fun _ hnext => h _ (.head ⟨found, hfound, e, he, hg⟩ hnext)

theorem Memo.Completes.succeeds {memo : Memo} {f : Fetch} (h : memo.Completes reply p f) :
    f.Succeeds reply p := by
  intro g hg
  obtain ⟨found, hfound, -⟩ := h g hg
  exact ⟨found, hfound⟩

/-! ## Building blocks -/

theorem Goes.mono {nodes' : List Nat} {x : Scheduled α} {good : α → Memo → Prop} {fine : Prop}
    (h : Goes reply p start nodes s x good fine) (hnodes : nodes ⊆ nodes') :
    Goes reply p start nodes' s x good fine where
  ends hleads := by
    obtain ⟨hgood, hprogress⟩ := h.ends hleads
    exact ⟨hgood, hprogress.mono hnodes⟩
  fails := h.fails

theorem Goes.imp {x : Scheduled α} {good good' : α → Memo → Prop} {fine fine' : Prop}
    (h : Goes reply p start nodes s x good fine) (hgood : ∀ a memo, good a memo → good' a memo)
    (hfine : fine' → fine) : Goes reply p start nodes s x good' fine' where
  ends hleads := ⟨hgood _ _ (h.ends hleads).1, (h.ends hleads).2⟩
  fails hfails hfine' := h.fails hfails (hfine hfine')

/-- What holds as long as nothing is taken out of the memo holds after a step if it did before. -/
theorem Goes.keep {x : Scheduled α} {good : α → Memo → Prop} {fine : Prop} {holds : Memo → Prop}
    (h : Goes reply p start nodes s x good fine)
    (mono : ∀ {memo memo' : Memo},
      (∀ {key found}, memo.filed key = some found → memo'.filed key = some found) →
        holds memo → holds memo')
    (before : holds s.memo) :
    Goes reply p start nodes s x (fun a memo => holds memo ∧ good a memo) fine where
  ends hleads := by
    obtain ⟨hgood, hprogress⟩ := h.ends hleads
    exact ⟨⟨mono hprogress.kept before, hgood⟩, hprogress⟩
  fails := h.fails

/-- Two steps one after the other. -/
theorem Goes.bind {x : Scheduled α} {f : α → Scheduled β} {good : α → Memo → Prop}
    {good' : β → Memo → Prop} {fine fine' : Prop}
    (h : Goes reply p start nodes s x good fine)
    (hnext : ∀ a s₁, s₁.memo.Correct reply p start → good a s₁.memo →
      Goes reply p start nodes s₁ (f a) good' fine') :
    Goes reply p start nodes s (x >>= f) good' (fine ∧ fine') where
  ends hleads := by
    obtain ⟨a, s₁, calls₁, calls₂, hfirst, hsecond, rfl⟩ := Leads.of_bind hleads
    obtain ⟨hgood, hprogress₁⟩ := h.ends hfirst
    obtain ⟨hgood', hprogress₂⟩ := (hnext a s₁ hprogress₁.correct hgood).ends hsecond
    exact ⟨hgood', hprogress₁.trans hprogress₂⟩
  fails hfails hfine := by
    rcases Fails.of_bind hfails with hfirst | ⟨a, s₁, calls₁, hfirst, hsecond⟩
    · exact h.fails hfirst hfine.1
    · obtain ⟨hgood, hprogress₁⟩ := h.ends hfirst
      exact (hnext a s₁ hprogress₁.correct hgood).fails hsecond hfine.2

/-- Nothing is done. -/
theorem goes_pure (correct : s.memo.Correct reply p start) (a : α) {good : α → Memo → Prop}
    {fine : Prop} (h : good a s.memo) : Goes reply p start nodes s (pure a) good fine where
  ends hleads := by
    obtain ⟨rfl, rfl, rfl⟩ := hleads.of_pure
    exact ⟨h, .of_same correct fun _ => rfl⟩
  fails hfails := absurd hfails (Scheduled.not_fails_pure a)

/-- A step after which something is made of its result. -/
theorem Goes.give {x : Scheduled α} {f : α → β} {good : α → Memo → Prop} {good' : β → Memo → Prop}
    {fine : Prop} (h : Goes reply p start nodes s x good fine)
    (hgood : ∀ a memo, good a memo → good' (f a) memo) :
    Goes reply p start nodes s (x >>= fun a => pure (f a)) good' fine := by
  have hgiven : Goes reply p start nodes s (x >>= fun a => pure (f a)) good' (fine ∧ True) :=
    h.bind fun a s₁ correct₁ hgood₁ => goes_pure correct₁ (f a) (hgood a s₁.memo hgood₁)
  exact hgiven.imp (fun _ _ hgood' => hgood') fun hfine => ⟨hfine, trivial⟩

/-- A step taken for what it does. -/
theorem Goes.discard {x : Scheduled α} {good : α → Memo → Prop} {good' : Memo → Prop} {fine : Prop}
    (h : Goes reply p start nodes s x good fine) (himp : ∀ a memo, good a memo → good' memo) :
    Goes reply p start nodes s (discard x) (fun _ memo => good' memo) fine := by
  rw [Scheduled.discard_eq]
  exact h.give himp

/-- A step that goes on from what it sees in the memo. -/
theorem goes_look {f : Memo → Scheduled α} {good : α → Memo → Prop} {fine : Prop}
    (h : Goes reply p start nodes s (f s.memo) good fine) :
    Goes reply p start nodes s (StateT.lift get >>= f) good fine where
  ends hleads := h.ends (Scheduled.leads_look.mp hleads)
  fails hfails := h.fails (Scheduled.fails_look.mp hfails)

/-- A change of the memo after which it is still correct, and nothing else is filed in it. -/
theorem goes_change {change : Memo → Memo} {good : Memo → Prop} {fine : Prop}
    (h : Progress reply p start nodes s.memo (change s.memo)) (hgood : good (change s.memo)) :
    Goes reply p start nodes s (StateT.lift (modify change)) (fun _ memo => good memo) fine where
  ends hleads := by
    obtain ⟨rfl, rfl⟩ := hleads.of_change
    exact ⟨hgood, h⟩
  fails hfails := absurd hfails (Scheduled.not_fails_change change)

/-- Looking at the memo after a resolution has been counted. -/
theorem goes_count_look {f : Memo → Scheduled α} {good : α → Memo → Prop} {fine : Prop}
    (h : Goes reply p start nodes s (Scheduled.countResolution >>= fun _ => f s.memo) good fine) :
    Goes reply p start nodes s (Scheduled.countResolution >>= fun _ => StateT.lift get >>= f) good
      fine where
  ends hleads :=
    have hlook := Scheduled.leads_look.mp (Scheduled.leads_count.mp hleads)
    h.ends (Scheduled.leads_count.mpr hlook)
  fails hfails :=
    have hlook := Scheduled.fails_look.mp (Scheduled.fails_count.mp hfails)
    h.fails (Scheduled.fails_count.mpr hlook)

/-- A resolution that is a hit. -/
theorem goes_hit (correct : s.memo.Correct reply p start) (a : α) {good : α → Memo → Prop}
    {fine : Prop} (h : good a s.memo.countHit) :
    Goes reply p start nodes s (do
      Scheduled.countResolution
      StateT.lift (modify fun m => { m with hits := m.hits + 1 })
      return a) good fine where
  ends hleads := by
    have hdone := Scheduled.leads_change.mp (Scheduled.leads_count.mp hleads)
    obtain ⟨rfl, rfl, rfl⟩ := hdone.of_pure
    exact ⟨h, .hit correct⟩
  fails hfails := by
    have hdone := Scheduled.fails_change.mp (Scheduled.fails_count.mp hfails)
    exact absurd hdone (Scheduled.not_fails_pure a)

/-- Steps one after another, for the items of a list. -/
theorem goes_inTurn {items : List α} {step : α → Scheduled Unit} {good : α → Memo → Prop}
    {fine : α → Prop}
    (mono : ∀ a {memo memo' : Memo},
      (∀ {key found}, memo.filed key = some found → memo'.filed key = some found) →
        good a memo → good a memo')
    (hstep : ∀ a ∈ items, ∀ s : Stage, s.memo.Correct reply p start →
      Goes reply p start nodes s (step a) (fun _ memo => good a memo) (fine a)) :
    ∀ s : Stage, s.memo.Correct reply p start →
      Goes reply p start nodes s (Scheduled.inTurn (items.map step))
        (fun _ memo => ∀ a ∈ items, good a memo) (∀ a ∈ items, fine a) := by
  induction items with
  | nil => exact fun s correct => goes_pure correct () fun _ ha => absurd ha List.not_mem_nil
  | cons a rest ih =>
    obtain ⟨hfirst, hlater⟩ := List.forall_mem_cons.mp hstep
    intro s correct
    have hboth := (hfirst s correct).bind fun _ s₁ correct₁ hgood =>
      (ih hlater s₁ correct₁).keep (mono a) hgood
    exact hboth.imp (fun _ _ hgood => List.forall_mem_cons.mpr hgood) List.forall_mem_cons.mp

/-- A list that is visited, in whatever order the schedule has for it. -/
theorem goes_visit {schedule : Schedule} {items : List α} {step : α → Scheduled Unit}
    {good : α → Memo → Prop} {fine : α → Prop}
    (mono : ∀ a {memo memo' : Memo},
      (∀ {key found}, memo.filed key = some found → memo'.filed key = some found) →
        good a memo → good a memo')
    (hstep : ∀ a ∈ items, ∀ s : Stage, s.memo.Correct reply p start →
      Goes reply p start nodes s (step a) (fun _ memo => good a memo) (fine a))
    (correct : s.memo.Correct reply p start) :
    Goes reply p start nodes s (Scheduled.visit schedule (items.map step))
      (fun _ memo => ∀ a ∈ items, good a memo) (∀ a ∈ items, fine a) := by
  -- the arranged steps are the steps for the items in another order
  obtain ⟨arranged, harranged, hperm⟩ : Relation.Comp (· = List.map step ·) List.Perm
      (schedule.arrange s.course.visits (items.map step)) items := by
    rw [List.eq_map_comp_perm]
    exact schedule.perm s.course.visits (items.map step)
  have hsteps := goes_inTurn mono (fun a ha => hstep a (hperm.mem_iff.mp ha)) s.visiting correct
  rw [← harranged] at hsteps
  constructor
  · intro u s' calls hleads
    obtain ⟨hgood, hprogress⟩ := hsteps.ends hleads
    exact ⟨fun a ha => hgood a (hperm.mem_iff.mpr ha), hprogress⟩
  · intro hfails hfine
    exact hsteps.fails hfails fun a ha => hfine a (hperm.mem_iff.mp ha)

/-! ## Fetches -/

namespace Pass

variable {plan : Plan} {memo memo' : Memo} {id : String} {link : Filter}

/-- What a look-up that ends well has done: a hit is counted, or the store has been asked and its
answer is filed. -/
theorem of_fetchOne {entity : Option Entity}
    (h : eval reply (fetchOne plan id) memo = (.ok entity, memo')) :
    (memo.entity? plan.info.id id = some entity ∧ memo' = memo.countHit ∧
        calls reply (fetchOne plan id) memo = []) ∨
      (memo.entity? plan.info.id id = none ∧
        reply (.get plan.info.collection id plan.projection) = .ok entity ∧
        memo' = (memo.countFetch (.one plan id)).file (.one plan id) entity.toList ∧
        calls reply (fetchOne plan id) memo
          = [.get plan.info.collection id plan.projection]) := by
  rw [eval_fetchOne] at h
  rw [calls_fetchOne]
  cases hfiled : memo.entity? plan.info.id id with
  | some found =>
    rw [hfiled] at h
    cases h
    exact .inl ⟨rfl, rfl, rfl⟩
  | none =>
    rw [hfiled] at h
    cases hreply : reply (.get plan.info.collection id plan.projection) with
    | error error =>
      rw [hreply] at h
      cases h
    | ok found =>
      rw [hreply] at h
      cases h
      refine .inr ⟨rfl, rfl, ?_, rfl⟩
      cases entity <;> rfl

/-- A look-up that fails has been failed by the store. -/
theorem of_fetchOne_error {error : QueryError}
    (h : eval reply (fetchOne plan id) memo = (.error error, memo')) :
    ∃ cause, reply (.get plan.info.collection id plan.projection) = .error cause := by
  rw [eval_fetchOne] at h
  split at h
  · cases h
  · split at h
    · cases h
    · next cause hreply => exact ⟨cause, hreply⟩

/-- What a search that ends well has done: it is counted, and the page is what the fetch gives. -/
theorem of_findPage {page : List Entity} (parent : Option String)
    (h : eval reply (findPage p plan link) memo = (.ok page, memo')) :
    memo' = memo.countFetch (.many plan parent link) ∧
      (Fetch.many plan parent link).found reply p = .ok page ∧
      ∃ call, (Fetch.many plan parent link).call p = .ok call ∧
        calls reply (findPage p plan link) memo = [call] := by
  rw [eval_findPage] at h
  rw [Fetch.found, Fetch.call, calls_findPage]
  cases hnarrow : p.narrow plan.info.collection (link ++ plan.info.scope.filter) with
  | error error =>
    rw [hnarrow] at h
    cases h
  | ok filter =>
    rw [hnarrow] at h
    dsimp only at h ⊢
    cases hreply : reply (.find plan.info.collection filter plan.projection) with
    | error error =>
      rw [hreply] at h
      cases h
    | ok found =>
      rw [hreply] at h
      cases h
      exact ⟨rfl, rfl, _, rfl, rfl⟩

/-- A search that fails has been refused by the permission or failed by the store. -/
theorem of_findPage_error {error : QueryError} (parent : Option String)
    (h : eval reply (findPage p plan link) memo = (.error error, memo')) :
    (Fetch.many plan parent link).found reply p = .error error := by
  rw [eval_findPage] at h
  rw [Fetch.found]
  cases hnarrow : p.narrow plan.info.collection (link ++ plan.info.scope.filter) with
  | error refused =>
    rw [hnarrow] at h
    cases h
    rfl
  | ok filter =>
    rw [hnarrow] at h
    dsimp only at h ⊢
    cases hreply : reply (.find plan.info.collection filter plan.projection) with
    | error cause =>
      rw [hreply] at h
      cases h
      rfl
    | ok found =>
      rw [hreply] at h
      cases h

end Pass

/-! ## Resolving -/

section Resolving

variable (keyed : Keyed reply) (hnodup : start.node.ids.Nodup)

/-- Following the references of a document that has been met completes them, unless one fails. -/
def Follows (reply : (call : Call) → call.Answer) (p : Permission) (start : Fetch)
    (schedule : Schedule) (plan : Plan) : Prop :=
  ∀ e, Met reply p start plan e → ∀ s : Stage, s.memo.Correct reply p start →
    Goes reply p start plan.idsBelow s (Scheduled.expand schedule p plan e)
      (fun _ memo => ∀ g ∈ plan.references e, memo.Completes reply p g)
      (∀ g ∈ plan.references e, g.Succeeds reply p)

include keyed hnodup

/-- Looking a document up: it is found where it is filed, or fetched and filed. -/
theorem goes_fetchOne {plan : Plan} {id : String} (correct : s.memo.Correct reply p start)
    (hneeded : Needed reply p start (.one plan id))
    (hcheck : p.check plan.info.collection id = true) :
    Goes reply p start plan.ids s
      (Scheduled.countResolution >>= fun _ => StateT.lift (Pass.fetchOne plan id))
      (fun entity memo => (Fetch.one plan id).found reply p = .ok entity.toList ∧
        memo.filed (Fetch.one plan id).key = some entity.toList)
      ((Fetch.one plan id).Succeeds reply p) := by
  constructor
  · intro entity s' calls hleads
    obtain ⟨heval, -, -⟩ := Leads.of_lift (Scheduled.leads_count.mp hleads)
    rcases Pass.of_fetchOne heval with ⟨hfiled, hmemo, -⟩ | ⟨hfiled, hreply, hmemo, -⟩
    · -- a hit: what is filed is what the fetch gives
      have hkey : s.memo.filed (Fetch.one plan id).key = some entity.toList :=
        congrArg (Option.map Option.toList) hfiled
      obtain ⟨hfound, -⟩ := correct.found keyed hnodup hneeded hkey
      rw [hmemo]
      refine ⟨⟨hfound, ?_⟩, .hit correct⟩
      exact (congrFun (Memo.filed_countHit s.memo) _).trans hkey
    · -- a miss: the store is asked, and its answer is filed
      have hfound : (Fetch.one plan id).found reply p = .ok entity.toList := by
        rw [Fetch.found, if_pos hcheck, hreply]
      have hnew : s.memo.filed (Fetch.one plan id).key = none :=
        congrArg (Option.map Option.toList) hfiled
      have hnone : Progress reply p start plan.idsBelow (s.memo.countFetch (.one plan id))
          (s.memo.countFetch (.one plan id)) :=
        .of_same (correct.of_same (Memo.filed_countFetch _ _) rfl) fun _ => rfl
      have hfetched := hnone.fetch hneeded hfound hnew (hneeded.key_not_below hnodup)
        fun hmany => by cases hmany
      rw [hmemo, Plan.ids_eq]
      refine ⟨⟨hfound, ?_⟩, hfetched⟩
      rw [Memo.filed_file hfound, if_pos rfl]
  · -- the store fails
    intro hfails hfine
    obtain ⟨error, memo, heval⟩ := Fails.of_lift (Scheduled.fails_count.mp hfails)
    obtain ⟨cause, hreply⟩ := Pass.of_fetchOne_error heval
    obtain ⟨found, hfound⟩ := hfine _ .refl
    rw [Fetch.found, if_pos hcheck, hreply] at hfound
    cases hfound

omit keyed hnodup in
/-- Following the references of a document that has been looked up, if there is one. -/
theorem goes_follow {schedule : Schedule} {plan : Plan} {id : String} {entity : Option Entity}
    (hfollows : Follows reply p start schedule plan) (hneeded : Needed reply p start (.one plan id))
    (correct : s.memo.Correct reply p start)
    (hfound : (Fetch.one plan id).found reply p = .ok entity.toList)
    (hfiled : s.memo.filed (Fetch.one plan id).key = some entity.toList) :
    Goes reply p start plan.idsBelow s
      (Scheduled.follow (Scheduled.expand schedule p plan) entity)
      (fun given memo => (Fetch.one plan id).found reply p = .ok given.toList ∧
        memo.Completes reply p (.one plan id))
      ((Fetch.one plan id).Succeeds reply p) := by
  cases entity with
  | none =>
    refine goes_pure correct none ⟨hfound, ?_⟩
    exact Memo.completes_of_references hfound hfiled fun _ he => absurd he List.not_mem_nil
  | some e =>
    have he : e ∈ (some e).toList := List.mem_singleton_self e
    have hexpand := (hfollows e ⟨_, _, hneeded, rfl, hfound, he⟩ s correct).keep
      (fun kept hold => kept hold) hfiled
    have hgiven := hexpand.imp (fun _ _ hgood => hgood)
      fun hfine : (Fetch.one plan id).Succeeds reply p => fun g hg => hfine.next hfound he hg
    refine hgiven.give fun _ memo hgood => ⟨hfound, ?_⟩
    refine Memo.completes_of_references hfound hgood.1 fun e' he' => ?_
    obtain rfl := List.mem_singleton.mp he'
    exact hgood.2

/-- Resolving one document: it is looked up, and then its references are followed. -/
theorem goes_resolveOne {schedule : Schedule} {plan : Plan} {id : String}
    (hfollows : Follows reply p start schedule plan) (hneeded : Needed reply p start (.one plan id))
    (correct : s.memo.Correct reply p start) :
    Goes reply p start plan.ids s ((Fetch.one plan id).resolveBy schedule p)
      (fun found memo => (Fetch.one plan id).found reply p = .ok found ∧
        memo.Completes reply p (.one plan id))
      ((Fetch.one plan id).Succeeds reply p) := by
  rw [Fetch.resolveBy, Scheduled.one, Scheduled.resolveOne, map_eq_pure_bind]
  by_cases hcheck : p.check plan.info.collection id = true
  · rw [if_pos hcheck, ← bind_assoc Scheduled.countResolution]
    have hresolve := (goes_fetchOne keyed hnodup correct hneeded hcheck).bind
      fun entity s₁ correct₁ hgood =>
        (goes_follow hfollows hneeded correct₁ hgood.1 hgood.2).mono plan.idsBelow_subset
    exact (hresolve.imp (fun _ _ hgood => hgood) fun hfine => ⟨hfine, hfine⟩).give
      fun _ _ hgood => hgood
  · rw [if_neg hcheck]
    constructor
    · intro found s' calls hleads
      obtain ⟨entity, s₁, calls₁, _, hresolve, -⟩ := Leads.of_bind hleads
      exact absurd (Scheduled.leads_count.mp hresolve) Scheduled.not_leads_throw
    · intro hfails hfine
      obtain ⟨found, hfound⟩ := hfine _ .refl
      rw [Fetch.found, if_neg hcheck] at hfound
      cases hfound

omit keyed hnodup in
/-- The documents of a page that has been found. -/
theorem goes_page {schedule : Schedule} {f : Fetch} {page : List Entity}
    (hfollows : Follows reply p start schedule f.node) (hneeded : Needed reply p start f)
    (hfound : f.found reply p = .ok page) (correct : s.memo.Correct reply p start) :
    Goes reply p start f.node.idsBelow s
      (Scheduled.visit schedule (page.map (Scheduled.expand schedule p f.node)))
      (fun _ memo => ∀ e ∈ page, ∀ g ∈ f.node.references e, memo.Completes reply p g)
      (∀ e ∈ page, ∀ g ∈ f.node.references e, g.Succeeds reply p) := by
  refine goes_visit (fun e _ _ kept hall g hg => (hall g hg).mono kept) (fun e he s => ?_) correct
  exact hfollows e ⟨f, page, hneeded, rfl, hfound, he⟩ s

/-- A page that is not filed: it is searched for, the references of its documents are followed, and
then it is filed. -/
theorem goes_search {schedule : Schedule} {plan : Plan} {parent : Option String} {link : Filter}
    (hfollows : Follows reply p start schedule plan)
    (hneeded : Needed reply p start (.many plan parent link))
    (correct : s.memo.Correct reply p start)
    (hnew : s.memo.filed (Fetch.many plan parent link).key = none) :
    Goes reply p start plan.ids s (do
        Scheduled.countResolution
        let page ← StateT.lift (Pass.findPage p plan link)
        Scheduled.visit schedule (page.map (Scheduled.expand schedule p plan))
        StateT.lift (modify fun m => { m with pages := ((plan.info.id, parent), page) :: m.pages })
        return page)
      (fun found memo => (Fetch.many plan parent link).found reply p = .ok found ∧
        memo.Completes reply p (.many plan parent link))
      ((Fetch.many plan parent link).Succeeds reply p) := by
  have correct₂ : (s.memo.countFetch (.many plan parent link)).Correct reply p start :=
    correct.of_same (Memo.filed_countFetch _ _) rfl
  constructor
  · intro found s' calls hleads
    obtain ⟨page, s₂, calls₂, _, hfind, hthen, rfl⟩ :=
      Leads.of_bind (Scheduled.leads_count.mp hleads)
    obtain ⟨_, s₃, calls₃, _, hvisit, hvisited, rfl⟩ := Leads.of_bind hthen
    obtain ⟨rfl, rfl, rfl⟩ := (Scheduled.leads_change.mp hvisited).of_pure
    obtain ⟨heval, hcourse, rfl⟩ := hfind.of_lift
    obtain ⟨hmemo, hfound, -⟩ := Pass.of_findPage parent heval
    obtain rfl : s₂ = ⟨s.memo.countFetch (.many plan parent link), s.resolving.course⟩ :=
      Stage.ext hmemo hcourse
    obtain ⟨hcomplete, hprogress⟩ := (goes_page hfollows hneeded hfound correct₂).ends hvisit
    have hfetched := hprogress.fetch hneeded hfound hnew (hneeded.key_not_below hnodup)
      fun _ => hcomplete
    have hnow : (s₃.memo.file (.many plan parent link) found).filed
        (Fetch.many plan parent link).key = some found := by
      rw [Memo.filed_file hfound, if_pos rfl]
    obtain ⟨-, hcompleted⟩ := hfetched.correct.found keyed hnodup hneeded hnow
    rw [Plan.ids_eq]
    exact ⟨⟨hfound, hcompleted rfl⟩, hfetched⟩
  · intro hfails hfine
    rcases Fails.of_bind (Scheduled.fails_count.mp hfails) with
      hfind | ⟨page, s₂, calls₂, hfind, hthen⟩
    · -- the search is refused, or the store fails
      obtain ⟨error, memo, heval⟩ := hfind.of_lift
      obtain ⟨found, hfound⟩ := hfine _ .refl
      rw [Pass.of_findPage_error parent heval] at hfound
      cases hfound
    · obtain ⟨heval, hcourse, -⟩ := hfind.of_lift
      obtain ⟨hmemo, hfound, -⟩ := Pass.of_findPage parent heval
      obtain rfl : s₂ = ⟨s.memo.countFetch (.many plan parent link), s.resolving.course⟩ :=
        Stage.ext hmemo hcourse
      rcases Fails.of_bind hthen with hvisit | ⟨_, s₃, _, -, hvisited⟩
      · exact (goes_page hfollows hneeded hfound correct₂).fails hvisit
          fun e he g hg => hfine.next hfound he hg
      · exact Scheduled.not_fails_pure _ (Scheduled.fails_change.mp hvisited)

/-- Resolving a page: it is filed already, and then complete, or it is searched for. -/
theorem goes_resolveMany {schedule : Schedule} {plan : Plan} {parent : Option String}
    {link : Filter} (hfollows : Follows reply p start schedule plan)
    (hneeded : Needed reply p start (.many plan parent link))
    (correct : s.memo.Correct reply p start) :
    Goes reply p start plan.ids s ((Fetch.many plan parent link).resolveBy schedule p)
      (fun found memo => (Fetch.many plan parent link).found reply p = .ok found ∧
        memo.Completes reply p (.many plan parent link))
      ((Fetch.many plan parent link).Succeeds reply p) := by
  rw [Fetch.resolveBy, Scheduled.many, Scheduled.resolveMany]
  refine goes_count_look ?_
  cases hfiled : s.memo.page? plan.info.id parent with
  | some page =>
    obtain ⟨hfound, hcomplete⟩ := correct.found keyed hnodup hneeded hfiled
    refine goes_hit correct page ⟨hfound, (hcomplete rfl).mono fun hold => ?_⟩
    rwa [Memo.filed_countHit]
  | none => exact goes_search keyed hnodup hfollows hneeded correct hfiled

/-- Resolving what is fetched at a node, if following references there goes as it should. -/
theorem goes_fetch {schedule : Schedule} {f : Fetch}
    (hfollows : Follows reply p start schedule f.node)
    (hneeded : Needed reply p start f) (correct : s.memo.Correct reply p start) :
    Goes reply p start f.node.ids s (f.resolveBy schedule p)
      (fun found memo => f.found reply p = .ok found ∧ memo.Completes reply p f)
      (f.Succeeds reply p) := by
  cases f with
  | one node id => exact goes_resolveOne keyed hnodup hfollows hneeded correct
  | many node parent link => exact goes_resolveMany keyed hnodup hfollows hneeded correct

/-- Following the references of a document, whatever the schedule. -/
theorem follows (schedule : Schedule) : ∀ plan : Plan, Follows reply p start schedule plan := by
  refine Plan.induct fun plan hchildren => ?_
  intro e hmet s correct
  have hstep : ∀ g ∈ plan.references e, ∀ s : Stage, s.memo.Correct reply p start →
      Goes reply p start plan.idsBelow s (discard (g.resolveBy schedule p))
        (fun _ memo => memo.Completes reply p g) (g.Succeeds reply p) := by
    intro g hg s correct
    obtain ⟨b, hb, hfetch⟩ := Plan.mem_references.mp hg
    have hnode := Plan.Branch.node_of_fetch? hfetch
    obtain ⟨-, -, -, hids⟩ := Plan.child_within hb
    have hfollows : Follows reply p start schedule g.node := by
      rw [hnode]
      exact hchildren b hb
    have hgoes := goes_fetch keyed hnodup hfollows (hmet.needed hg) correct
    rw [hnode] at hgoes
    exact (hgoes.discard fun _ _ hgood => hgood.2).mono hids.subset
  have hvisit : Goes reply p start plan.idsBelow s
      (Scheduled.visit schedule ((plan.references e).map fun g => discard (g.resolveBy schedule p)))
      (fun _ memo => ∀ g ∈ plan.references e, memo.Completes reply p g)
      (∀ g ∈ plan.references e, g.Succeeds reply p) :=
    goes_visit (fun g _ _ kept hg => hg.mono kept) hstep correct
  rw [Scheduled.expand_eq]
  split
  · next hleaf =>
    -- nothing hangs below
    refine goes_pure correct () fun g hg => ?_
    rw [Plan.references_of_leaf hleaf] at hg
    exact absurd hg List.not_mem_nil
  · refine goes_look ?_
    split
    · next hexpanded =>
      -- they have been followed before
      exact goes_pure correct () (correct.references keyed hnodup hmet hexpanded)
    · refine (hvisit.bind fun _ s₁ correct₁ hcomplete => ?_).imp (fun _ _ hgood => hgood)
        fun hfine => ⟨hfine, trivial⟩
      have hnoted : Progress reply p start plan.idsBelow s₁.memo
          (s₁.memo.addExpanded plan.info.id e.id) :=
        .of_same (correct₁.note hmet hcomplete) fun _ => rfl
      exact goes_change hnoted hcomplete

/-- **Resolving comes to the same in every order.** Whatever the schedule, resolving a needed fetch
fails only if something that is needed from there on fails. Otherwise it gives what the fetch gives,
and all that is needed is filed. -/
theorem goes_resolveBy (schedule : Schedule) {f : Fetch} (hneeded : Needed reply p start f)
    (correct : s.memo.Correct reply p start) :
    Goes reply p start f.node.ids s (f.resolveBy schedule p)
      (fun found memo => f.found reply p = .ok found ∧ memo.Completes reply p f)
      (f.Succeeds reply p) :=
  goes_fetch keyed hnodup (follows keyed hnodup schedule f.node) hneeded correct

end Resolving

end LinkedDocs
