import LinkedDocs.Proofs.Pass.Schedule
import LinkedDocs.Proofs.Permission.Narrowing

/-!
# What all steps of a pass have in common

A pass is put together from few building blocks: it looks at its memo, changes it, asks the store,
refuses what the caller may not see, and goes on. A property of steps that the blocks have, and that
two steps have one after the other if each has it, is `Composed`, and then every pass has it,
whatever its plan and in whatever order it goes (`Composed.one`, `Composed.many`). The induction
over plans is made here, once for all such properties.

Calls to the store are blocks only where they are guarded: a single document has passed the check of
the permission, and a search lets nothing through that would not pass it (`Permission.Guarded`).
-/

namespace LinkedDocs

/-- The call can show the caller nothing but what the permission grants. -/
def Permission.Guarded (p : Permission) : Call → Prop
  | .get collection id _ => p.check collection id = true
  | .find collection filter _ => ∀ e, filter.holds e = true → p.check collection e.id = true
  | _ => False

namespace Pass

/-- A property of the building blocks of a pass that is kept where one step follows another. -/
structure Composed (p : Permission) (good : ∀ {α : Type}, Pass α → Prop) : Prop where
  done : ∀ {α : Type} (a : α), good (pure a)
  refuse : ∀ {α : Type} (collection id : String),
    good (throw (.forbidden collection id) : Pass α)
  look : good (get : Pass Memo)
  change : ∀ f : Memo → Memo, good (modify f)
  ask : ∀ call, p.Guarded call → good (ask call)
  bind : ∀ {α β : Type} {x : Pass α} {f : α → Pass β}, good x → (∀ a, good (f a)) → good (x >>= f)

namespace Composed

variable {p : Permission} {good : ∀ {α : Type}, Pass α → Prop} (h : Composed p good)
include h

theorem fetchOne {plan : Plan} {id : String} (hcheck : p.check plan.info.collection id = true) :
    good (fetchOne plan id) := by
  refine h.bind h.look fun memo => ?_
  cases memo.entity? plan.info.id id with
  | some entity => exact h.bind (h.change _) fun _ => h.done entity
  | none =>
    refine h.bind (h.change _) fun _ => h.bind ?_ fun entity =>
      h.bind (h.change _) fun _ => h.done entity
    exact h.ask _ hcheck

theorem findPage (plan : Plan) (link : Filter) : good (findPage p plan link) := by
  unfold Pass.findPage
  cases hnarrow : p.narrow plan.info.collection (link ++ plan.info.scope.filter) with
  | error error =>
    obtain ⟨id, rfl⟩ := Permission.forbidden_of_narrow hnarrow
    exact h.refuse _ id
  | ok filter =>
    refine h.bind (h.change _) fun _ => h.bind ?_ fun found => h.done _
    -- what the narrowed filter lets through has passed the check
    refine h.ask _ fun e he => ?_
    rw [Permission.holds_narrow hnarrow, Bool.and_eq_true] at he
    exact he.2

theorem map {α β : Type} {x : Pass α} (hx : good x) (f : α → β) : good (f <$> x) := by
  rw [map_eq_pure_bind]
  exact h.bind hx fun a => h.done (f a)

/-! ## Steps that go by a schedule -/

variable {α β : Type}

theorem scheduled_bind {x : Scheduled α} {f : α → Scheduled β}
    (hx : ∀ course, good (x.run course)) (hf : ∀ a course, good ((f a).run course)) :
    ∀ course, good ((x >>= f).run course) := by
  intro course
  rw [StateT.run_bind]
  exact h.bind (hx course) fun ended => hf ended.1 ended.2

theorem scheduled_lift {step : Pass α} (hstep : good step) :
    ∀ course, good ((StateT.lift step : Scheduled α).run course) := by
  intro course
  rw [StateT.run_lift]
  exact h.bind hstep fun a => h.done (a, course)

theorem inTurn {steps : List (Scheduled Unit)}
    (hsteps : ∀ step ∈ steps, ∀ course, good (step.run course)) :
    ∀ course, good ((Scheduled.inTurn steps).run course) := by
  induction steps with
  | nil => exact fun course => h.done ((), course)
  | cons step steps ih =>
    obtain ⟨hstep, hrest⟩ := List.forall_mem_cons.mp hsteps
    exact h.scheduled_bind hstep fun _ => ih hrest

theorem visit {schedule : Schedule} {steps : List (Scheduled Unit)}
    (hsteps : ∀ step ∈ steps, ∀ course, good (step.run course)) :
    ∀ course, good ((Scheduled.visit schedule steps).run course) := by
  intro course
  refine h.inTurn (fun step hstep => hsteps step ?_) _
  exact (schedule.perm _ steps).mem_iff.mp hstep

theorem resolveOne (plan : Plan) {expand : Entity → Scheduled Unit}
    (hexpand : ∀ e course, good ((expand e).run course)) (id : String) :
    ∀ course, good ((Scheduled.resolveOne p plan expand id).run course) := by
  refine h.scheduled_bind (fun course => h.done _) fun _ => ?_
  split
  · next hcheck =>
    refine h.scheduled_bind (h.scheduled_lift (h.fetchOne hcheck)) fun entity => ?_
    cases entity with
    | none => exact fun course => h.done _
    | some found => exact h.scheduled_bind (hexpand found) fun _ course => h.done _
  · exact fun course => h.refuse _ _

theorem resolveMany (schedule : Schedule) (plan : Plan) {expand : Entity → Scheduled Unit}
    (hexpand : ∀ e course, good ((expand e).run course)) (parent : Option String) (link : Filter) :
    ∀ course, good ((Scheduled.resolveMany schedule p plan expand parent link).run course) := by
  refine h.scheduled_bind (fun course => h.done _) fun _ => ?_
  refine h.scheduled_bind (h.scheduled_lift h.look) fun memo => ?_
  cases memo.page? plan.info.id parent with
  | some page =>
    exact h.scheduled_bind (h.scheduled_lift (h.change _)) fun _ course => h.done _
  | none =>
    refine h.scheduled_bind (h.scheduled_lift (h.findPage plan link)) fun page => ?_
    refine h.scheduled_bind (h.visit fun step hstep => ?_) fun _ =>
      h.scheduled_bind (h.scheduled_lift (h.change _)) fun _ course => h.done _
    obtain ⟨e, -, rfl⟩ := List.mem_map.mp hstep
    exact hexpand e

theorem scheduled_discard {x : Scheduled α} (hx : ∀ course, good (x.run course)) :
    ∀ course, good ((discard x : Scheduled Unit).run course) := by
  rw [Scheduled.discard_eq]
  exact h.scheduled_bind hx fun _ course => h.done _

mutual

theorem expand (schedule : Schedule) : ∀ (plan : Plan) (e : Entity) (course : Course),
    good ((Scheduled.expand schedule p plan e).run course)
  | .node info ones manys, e => by
    rw [Scheduled.expand]
    split
    · exact fun course => h.done _
    · refine h.scheduled_bind (h.scheduled_lift h.look) fun memo => ?_
      split
      · exact fun course => h.done _
      · refine h.scheduled_bind (h.visit fun step hstep => ?_) fun _ =>
          h.scheduled_lift (h.change _)
        rcases List.mem_append.mp hstep with hone | hmany
        · exact followOnes schedule ones e step hone
        · exact followManys schedule info.collection manys e step hmany

theorem followOnes (schedule : Schedule) : ∀ (ones : List (String × Plan)) (e : Entity),
    ∀ step ∈ Scheduled.followOnes schedule p ones e, ∀ course, good (step.run course)
  | [], _, _, hstep => absurd hstep List.not_mem_nil
  | (target, child) :: rest, e, step, hstep => by
    have hrest := followOnes schedule rest e step
    rw [Scheduled.followOnes] at hstep
    cases hlink : e.link target with
    | single id =>
      rw [hlink] at hstep
      rcases List.mem_cons.mp hstep with rfl | hlater
      · exact h.scheduled_discard (h.resolveOne child (expand schedule child) id)
      · exact hrest hlater
    | absent | many | invalid =>
      rw [hlink] at hstep
      exact hrest hstep

theorem followManys (schedule : Schedule) : ∀ (collection : String)
    (manys : List (String × Plan)) (e : Entity),
    ∀ step ∈ Scheduled.followManys schedule p collection manys e, ∀ course, good (step.run course)
  | _, [], _, _, hstep => absurd hstep List.not_mem_nil
  | collection, (target, child) :: rest, e, step, hstep => by
    have hrest := followManys schedule collection rest e step
    rw [Scheduled.followManys] at hstep
    cases hlink : linkFilter? collection e target with
    | some link =>
      rw [hlink] at hstep
      rcases List.mem_cons.mp hstep with rfl | hlater
      · exact h.scheduled_discard (h.resolveMany schedule child (expand schedule child) _ link)
      · exact hrest hlater
    | none =>
      rw [hlink] at hstep
      exact hrest hstep

end

/-! ## Passes -/

theorem scheduled_one (schedule : Schedule) (plan : Plan) (id : String) :
    ∀ course, good ((Scheduled.one schedule p plan id).run course) :=
  h.resolveOne plan (h.expand schedule plan) id

theorem scheduled_many (schedule : Schedule) (plan : Plan) (parent : Option String)
    (link : Filter) : ∀ course, good ((Scheduled.many schedule p plan parent link).run course) :=
  h.resolveMany schedule plan (h.expand schedule plan) parent link

/-- Resolving one document has every property that its steps have. -/
theorem one (plan : Plan) (id : String) : good (Pass.one p plan id) := by
  rw [← Scheduled.erases_one p plan id .start]
  exact h.map (h.scheduled_one .own plan id .start) Prod.fst

/-- Resolving a page has every property that its steps have. -/
theorem many (plan : Plan) (parent : Option String) (link : Filter) :
    good (Pass.many p plan parent link) := by
  rw [← Scheduled.erases_many p plan parent link .start]
  exact h.map (h.scheduled_many .own plan parent link .start) Prod.fst

end Composed

end Pass

end LinkedDocs
