import LinkedDocs.Proofs.Pass.Step

/-!
# Passes in any order

A pass follows the references of a document, and the documents of a page, one after another in the
order in which they come. A `Schedule` puts each such list into an order of its own choice before it
is visited. With given answers a pass goes the same way every time, so whoever chooses the next item
only when the last one is done, from all that has happened, chooses by a schedule as well.

`Scheduled` steps are the steps of a pass that goes by a schedule. They keep a `Course` as well,
which counts the lists that have been visited and the references that have been resolved, be it from
the memo or from the store.

> `erases_one`, `erases_many`: if every list is left in its own order, what is left of a scheduled
> pass without its course is the pass.
-/

namespace LinkedDocs

/-- Orders for the lists that a pass visits: the `k`-th list may be arranged in any way. -/
structure Schedule where
  arrange : {α : Type} → (k : Nat) → List α → List α
  perm : ∀ {α : Type} (k : Nat) (items : List α), (arrange k items).Perm items

/-- Every list as it comes. -/
def Schedule.own : Schedule := ⟨fun _ items => items, fun _ items => .refl items⟩

/-- What a pass that goes by a schedule counts. -/
structure Course where
  /-- The lists that have been visited. -/
  visits : Nat
  /-- How often a reference, or the root, has been resolved. -/
  resolutions : Nat

/-- Nothing has been visited. -/
def Course.start : Course := ⟨0, 0⟩

/-- A step of a pass that goes by a schedule. -/
abbrev Scheduled := StateT Course Pass

namespace Scheduled

/-- Takes steps one after another. -/
def inTurn : List (Scheduled Unit) → Scheduled Unit
  | [] => pure ()
  | step :: steps => do
    step
    inTurn steps

/-- Visits a list: takes its steps in the order that the schedule has for it. -/
def visit (schedule : Schedule) (steps : List (Scheduled Unit)) : Scheduled Unit := do
  let course : Course ← get
  set { course with visits := course.visits + 1 }
  inTurn (schedule.arrange course.visits steps)

/-- Counts a resolution. -/
def countResolution : Scheduled Unit :=
  modify fun course => { course with resolutions := course.resolutions + 1 }

/-- Follows the references of a document that exists. -/
def follow (expand : Entity → Scheduled Unit) : Option Entity → Scheduled (Option Entity)
  | none => pure none
  | some e => do
    expand e
    return some e

/-- Resolves one document at the root of a plan. -/
def resolveOne (p : Permission) (plan : Plan) (expand : Entity → Scheduled Unit) (id : String) :
    Scheduled (Option Entity) := do
  countResolution
  if p.check plan.info.collection id then
    let entity ← StateT.lift (Pass.fetchOne plan id)
    follow expand entity
  else throw (.forbidden plan.info.collection id)

/-- Resolves a page at the root of a plan. Its documents are a list that is visited. -/
def resolveMany (schedule : Schedule) (p : Permission) (plan : Plan)
    (expand : Entity → Scheduled Unit) (parent : Option String) (link : Filter) :
    Scheduled (List Entity) := do
  countResolution
  let memo : Memo ← StateT.lift get
  match memo.page? plan.info.id parent with
  | some page =>
    StateT.lift (modify fun m => { m with hits := m.hits + 1 })
    return page
  | none =>
    let page ← StateT.lift (Pass.findPage p plan link)
    visit schedule (page.map expand)
    StateT.lift (modify fun m => { m with pages := ((plan.info.id, parent), page) :: m.pages })
    return page

mutual

/-- Follows the references of a document, once per node. They are a list that is visited. -/
def expand (schedule : Schedule) (p : Permission) : Plan → Entity → Scheduled Unit
  | .node info ones manys, e => do
    if ones.isEmpty && manys.isEmpty then pure ()
    else
      let memo : Memo ← StateT.lift get
      if memo.isExpanded info.id e.id then pure ()
      else
        visit schedule (followOnes schedule p ones e ++ followManys schedule p info.collection manys e)
        StateT.lift (modify fun m => { m with expanded := (info.id, e.id) :: m.expanded })

/-- The steps that follow the single references of a document. -/
def followOnes (schedule : Schedule) (p : Permission) :
    List (String × Plan) → Entity → List (Scheduled Unit)
  | [], _ => []
  | (target, child) :: rest, e =>
    match e.link target with
    | .single id =>
      discard (resolveOne p child (expand schedule p child) id) :: followOnes schedule p rest e
    | _ => followOnes schedule p rest e

/-- The steps that follow the many references of a document of the given collection. -/
def followManys (schedule : Schedule) (p : Permission) (collection : String) :
    List (String × Plan) → Entity → List (Scheduled Unit)
  | [], _ => []
  | (target, child) :: rest, e =>
    match Pass.linkFilter? collection e target with
    | some link =>
      discard (resolveMany schedule p child (expand schedule p child) (some e.id) link)
        :: followManys schedule p collection rest e
    | none => followManys schedule p collection rest e

end

/-- Resolves one document and all that its plan refers to. -/
def one (schedule : Schedule) (p : Permission) (plan : Plan) (id : String) :
    Scheduled (Option Entity) :=
  resolveOne p plan (expand schedule p plan) id

/-- Resolves a page and all that its plan refers to. -/
def many (schedule : Schedule) (p : Permission) (plan : Plan) (parent : Option String)
    (link : Filter) : Scheduled (List Entity) :=
  resolveMany schedule p plan (expand schedule p plan) parent link

variable {α β : Type}

/-- Taking a step for what it does. -/
theorem discard_eq (x : Scheduled α) : discard x = x >>= fun _ => pure () := map_eq_pure_bind _ x

/-! ## The course left out -/

/-- Without its course, the scheduled step is this step of a pass. -/
def Erases (x : Scheduled α) (step : Pass α) : Prop :=
  ∀ course, Prod.fst <$> x.run course = step

theorem erases_pure (a : α) : Erases (pure a) (pure a) := by
  intro course
  rw [StateT.run_pure, map_pure]

theorem erases_throw (error : QueryError) : Erases (throw error : Scheduled α) (throw error) := by
  intro course
  rfl

theorem erases_lift (step : Pass α) : Erases (StateT.lift step) step := by
  intro course
  rw [StateT.run_lift, map_bind]
  simp only [map_pure]
  exact bind_pure step

theorem Erases.bind {x : Scheduled α} {step : Pass α} {f : α → Scheduled β} {g : α → Pass β}
    (h : Erases x step) (hnext : ∀ a, Erases (f a) (g a)) : Erases (x >>= f) (step >>= g) := by
  intro course
  have hafter : ∀ ended : α × Course, Prod.fst <$> (f ended.1).run ended.2 = g ended.1 :=
    fun ended => hnext ended.1 ended.2
  rw [StateT.run_bind, map_bind, ← h course, bind_map_left]
  exact bind_congr hafter

/-- Counting is not seen without the course. -/
theorem Erases.count {x : Scheduled α} {step : Pass α} (h : Erases x step)
    (f : Course → Course) : Erases (modify f >>= fun _ => x) step := by
  intro course
  exact h (f course)

theorem Erases.visit {steps : List (Scheduled Unit)} {step : Pass Unit}
    (h : Erases (inTurn steps) step) : Erases (visit .own steps) step := by
  intro course
  exact h _

theorem Erases.discard {x : Scheduled α} {step : Pass α} (h : Erases x step) :
    Erases (discard x) (discard step) := by
  rw [discard_eq, Pass.discard_eq]
  exact h.bind fun _ => erases_pure ()

theorem inTurn_append (first second : List (Scheduled Unit)) :
    inTurn (first ++ second) = inTurn first >>= fun _ => inTurn second := by
  induction first with
  | nil => rfl
  | cons step steps ih =>
    show (step >>= fun _ => inTurn (steps ++ second)) = (step >>= fun _ => inTurn steps) >>= _
    rw [ih, bind_assoc]

theorem erases_forEach {step : Entity → Scheduled Unit} {step' : Entity → Pass Unit}
    (h : ∀ e, Erases (step e) (step' e)) :
    ∀ items : List Entity, Erases (inTurn (items.map step)) (Pass.forEach step' items)
  | [] => erases_pure ()
  | item :: items => (h item).bind fun _ => erases_forEach h items

theorem erases_resolveOne (p : Permission) (plan : Plan) {expand : Entity → Scheduled Unit}
    {expand' : Entity → Pass Unit} (h : ∀ e, Erases (expand e) (expand' e)) (id : String) :
    Erases (resolveOne p plan expand id) (Pass.resolveOne p plan expand' id) := by
  rw [Pass.resolveOne_eq]
  refine Erases.count ?_ _
  split
  · refine (erases_lift _).bind fun entity => ?_
    cases entity with
    | none => exact erases_pure none
    | some found => exact (h found).bind fun _ => erases_pure (some found)
  · exact erases_throw _

theorem erases_fetchPage (p : Permission) (plan : Plan) {expand : Entity → Scheduled Unit}
    {expand' : Entity → Pass Unit} (h : ∀ e, Erases (expand e) (expand' e)) (link : Filter) :
    Erases (do
      let page ← StateT.lift (Pass.findPage p plan link)
      visit .own (page.map expand)
      return page) (Pass.fetchPage p plan expand' link) := by
  rw [Pass.fetchPage_eq]
  exact (erases_lift _).bind fun page =>
    (erases_forEach h page).visit.bind fun _ => erases_pure page

theorem erases_resolveMany (p : Permission) (plan : Plan) {expand : Entity → Scheduled Unit}
    {expand' : Entity → Pass Unit} (h : ∀ e, Erases (expand e) (expand' e))
    (parent : Option String) (link : Filter) :
    Erases (resolveMany .own p plan expand parent link)
      (Pass.resolveMany p plan expand' parent link) := by
  rw [Pass.resolveMany_eq]
  refine Erases.count ?_ _
  refine (erases_lift _).bind fun memo => ?_
  cases memo.page? plan.info.id parent with
  | some page => exact (erases_lift _).bind fun _ => erases_pure page
  | none =>
    have hfile : ∀ page : List Entity, Erases (do
        StateT.lift (modify fun m => { m with pages := ((plan.info.id, parent), page) :: m.pages })
        return page) (do
        modify fun m => { m with pages := ((plan.info.id, parent), page) :: m.pages }
        return page) := fun page => (erases_lift _).bind fun _ => erases_pure page
    have hpage := (erases_fetchPage p plan h link).bind hfile
    simpa only [bind_assoc, pure_bind] using hpage

mutual

theorem erases_expand (p : Permission) : ∀ (plan : Plan) (e : Entity),
    Erases (expand .own p plan e) (Pass.expand p plan e)
  | .node info ones manys, e => by
    rw [expand, Pass.expand]
    split
    · exact erases_pure ()
    · refine (erases_lift _).bind fun memo => ?_
      split
      · exact erases_pure ()
      · have hsteps : Erases (inTurn (followOnes .own p ones e
              ++ followManys .own p info.collection manys e))
            (Pass.followOnes p ones e >>= fun _ =>
              Pass.followManys p info.collection manys e) := by
          rw [inTurn_append]
          exact (erases_followOnes p ones e).bind fun _ =>
            erases_followManys p info.collection manys e
        simpa only [bind_assoc] using hsteps.visit.bind fun _ => erases_lift _

theorem erases_followOnes (p : Permission) : ∀ (ones : List (String × Plan)) (e : Entity),
    Erases (inTurn (followOnes .own p ones e)) (Pass.followOnes p ones e)
  | [], _ => erases_pure ()
  | (target, child) :: rest, e => by
    have hrest := erases_followOnes p rest e
    rw [followOnes, Pass.followOnes]
    cases e.link target with
    | single id =>
      exact (erases_resolveOne p child (erases_expand p child) id).discard.bind fun _ => hrest
    | absent | many | invalid => exact hrest

theorem erases_followManys (p : Permission) : ∀ (collection : String)
    (manys : List (String × Plan)) (e : Entity),
    Erases (inTurn (followManys .own p collection manys e)) (Pass.followManys p collection manys e)
  | _, [], _ => erases_pure ()
  | collection, (target, child) :: rest, e => by
    have hrest := erases_followManys p collection rest e
    rw [followManys, Pass.followManys]
    cases Pass.linkFilter? collection e target with
    | some link =>
      exact (erases_resolveMany p child (erases_expand p child) _ link).discard.bind fun _ => hrest
    | none => exact hrest

end

/-- With every list in its own order, resolving one document goes as it does without a schedule. -/
theorem erases_one (p : Permission) (plan : Plan) (id : String) :
    Erases (one .own p plan id) (Pass.one p plan id) :=
  erases_resolveOne p plan (erases_expand p plan) id

/-- With every list in its own order, resolving a page goes as it does without a schedule. -/
theorem erases_many (p : Permission) (plan : Plan) (parent : Option String) (link : Filter) :
    Erases (many .own p plan parent link) (Pass.many p plan parent link) :=
  erases_resolveMany p plan (erases_expand p plan) parent link

end Scheduled

end LinkedDocs
