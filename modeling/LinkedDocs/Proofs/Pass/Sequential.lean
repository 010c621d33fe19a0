import LinkedDocs.Proofs.Pass.Completion
import LinkedDocs.Proofs.Pass.Interleaving

/-!
# A pass as a run of its tasks

A pass that is led with a store that answers each call before the next step goes on with one thing
at a time, depth first. It is the run of its tasks in which the first task always takes the turn
(`Reaches`): new tasks stand before the one that waits for them, so the first one never waits.

The memo of the pass and the cells of the tasks are compared by `Mirrors`. They agree, but for the
cells that work in hand has reserved: the page that is being filed, and the document whose
references are being followed. This work is at nodes above the one where the pass is (`Apart`), so
its cells are not asked for.

> `performs_resolve`: what a pass does to resolve a fetch, the task does that has been asked to
> resolve it, with the tasks that it adds, and the others are left as they were.
> `run_of_leads`: so a pass that ends well is a run of its tasks that ends with no task left.

The induction is on the plan, as for what a pass comes to.
-/

namespace LinkedDocs

/-- A cell for what may be there. -/
def Cell.ofOption {α : Type} : Option α → Cell α
  | none => .empty
  | some value => .filled value

/-- Whether this is a page at one of the first nodes, or a document at one of the second. -/
def Joint.IsAt (pages documents : List Nat) : Joint → Prop
  | .caller => False
  | .page key => key.1 ∈ pages
  | .document key => key.1 ∈ documents

theorem Joint.IsAt.mono {pages pages' documents documents' : List Nat} (hpages : pages ⊆ pages')
    (hdocuments : documents ⊆ documents') :
    ∀ {joint : Joint}, joint.IsAt pages documents → joint.IsAt pages' documents'
  | .page _, h => hpages h
  | .document _, h => hdocuments h

open Scheduled (Leads)

namespace Tasks

section

variable (reply : (call : Call) → call.Answer) (p : Permission) (limit : Nat)

/-- The first task has taken some turns. -/
def Reaches (t t' : Tasks) : Prop := ∃ count, t.run reply p limit (List.replicate count 0) = .ok t'

end

variable {reply : (call : Call) → call.Answer} {p : Permission} {limit : Nat} {f : Fetch}
  {t t₁ t' : Tasks} {joint : Joint} {work : Work} {task : Task} {tasks below : List Task}
  {opens : List Joint} {s s' : Stage} {pages pages' documents documents' : List Nat} {α : Type}

theorem joins_eq_false (h : ∀ task ∈ t.live, task.joint ≠ joint) : t.joins joint = false :=
  List.any_eq_false.mpr fun task htask heq => h task htask (of_decide_eq_true heq)

theorem Reaches.refl (t : Tasks) : Reaches reply p limit t t := ⟨0, rfl⟩

theorem Reaches.trans (h : Reaches reply p limit t t₁) (h' : Reaches reply p limit t₁ t') :
    Reaches reply p limit t t' := by
  obtain ⟨count, hrun⟩ := h
  obtain ⟨count', hrun'⟩ := h'
  refine ⟨count + count', ?_⟩
  unfold run at hrun hrun' ⊢
  rw [List.replicate_add, List.foldlM_append, hrun]
  exact hrun'

/-- The first task, added to the others. -/
theorem exists_rest (h : t.live = task :: below) :
    ∃ rest : Tasks, t = rest.add [task] ∧ rest.live = below := by
  refine ⟨{ t with live := below }, ?_, rfl⟩
  show t = { t with live := task :: below }
  rw [← h]

/-- The turn of the first task. -/
theorem reaches_of_advance {rest : Tasks}
    (h : advance reply p limit rest joint work = .ok (some t')) :
    Reaches reply p limit (rest.add [⟨joint, work⟩]) t' := by
  have hstep : (rest.add [⟨joint, work⟩]).step reply p limit 0 = .ok t' := by
    rw [step]
    simp only [add, List.cons_append, List.nil_append, List.getElem?_cons_zero,
      List.eraseIdx_cons_zero]
    rw [h]
    rfl
  refine ⟨1, ?_⟩
  show ((rest.add [⟨joint, work⟩]).step reply p limit 0 >>= fun t₁ => t₁.run reply p limit []) = _
  rw [hstep]
  rfl

/-- What is not there yet is asked for: three turns. -/
theorem reaches_receive {rest : Tasks} {call : Call} (hadmitted : f.refusal? p = none)
    (hempty : rest.slots f.key = .empty) (hcall : f.call p = .ok call)
    (hidle : ∀ task ∈ rest.live, task.isInFlight = false) :
    Reaches reply p limit (rest.add [⟨joint, .resolve f⟩])
      (((rest.setSlot f.key .reserved).countCall f call).add [⟨joint, .receive f⟩]) := by
  have hresolve : Reaches reply p limit (rest.add [⟨joint, .resolve f⟩])
      (rest.add [⟨joint, .settle f⟩]) := by
    refine reaches_of_advance ?_
    rw [advance, hadmitted, hempty]
  have hsettle : Reaches reply p limit (rest.add [⟨joint, .settle f⟩])
      ((rest.setSlot f.key .reserved).add [⟨joint, .ask f⟩]) := by
    refine reaches_of_advance ?_
    rw [advance, hempty]
  have hask : Reaches reply p limit ((rest.setSlot f.key .reserved).add [⟨joint, .ask f⟩])
      (((rest.setSlot f.key .reserved).countCall f call).add [⟨joint, .receive f⟩]) := by
    have hnone : (rest.setSlot f.key .reserved).inFlight = 0 :=
      List.countP_eq_zero.mpr fun task htask => by simp [hidle task htask]
    refine reaches_of_advance ?_
    rw [advance, hcall, hnone]
    exact if_pos (by omega)
  exact hresolve.trans (hsettle.trans hask)

/-! ## Tasks apart -/

/-- No call is in flight, and neither what the tasks are joined by nor what is in hand is at these
nodes. -/
structure Apart (pages documents : List Nat) (opens : List Joint) (live : List Task) : Prop where
  idle : ∀ task ∈ live, task.isInFlight = false
  joints : ∀ task ∈ live, ¬ task.joint.IsAt pages documents
  opens : ∀ joint ∈ opens, ¬ joint.IsAt pages documents

theorem Apart.mono {live live' : List Task} (h : Apart pages documents opens live)
    (hpages : pages' ⊆ pages) (hdocuments : documents' ⊆ documents) (hlive : live' ⊆ live) :
    Apart pages' documents' opens live' where
  idle task htask := h.idle task (hlive htask)
  joints task htask hat := h.joints task (hlive htask) (hat.mono hpages hdocuments)
  opens joint hjoint hat := h.opens joint hjoint (hat.mono hpages hdocuments)

/-- A task gives way to others, with its own joint or one that is not at these nodes. -/
theorem Apart.replace (h : Apart pages documents opens (⟨joint, work⟩ :: below))
    (hnew : ∀ task ∈ tasks, task.isInFlight = false ∧
      (task.joint = joint ∨ ¬ task.joint.IsAt pages documents)) :
    Apart pages documents opens (tasks ++ below) where
  idle := List.forall_mem_append.mpr ⟨fun task htask => (hnew task htask).1,
    fun task htask => h.idle task (List.mem_cons_of_mem _ htask)⟩
  joints := by
    refine List.forall_mem_append.mpr ⟨fun task htask => ?_,
      fun task htask => h.joints task (List.mem_cons_of_mem _ htask)⟩
    rcases (hnew task htask).2 with hown | hother
    · rw [hown]
      exact h.joints _ (List.mem_cons_self ..)
    · exact hother
  opens := h.opens

/-- Something is taken in hand, and tasks are added that are joined by it. -/
theorem Apart.descend {held : Joint} (h : Apart pages documents opens (⟨joint, work⟩ :: below))
    (hpages : pages' ⊆ pages) (hdocuments : documents' ⊆ documents)
    (hheld : ¬ held.IsAt pages' documents')
    (hnew : ∀ task ∈ tasks, task.isInFlight = false ∧ (task.joint = joint ∨ task.joint = held)) :
    Apart pages' documents' (held :: opens) (tasks ++ below) := by
  have hmono := h.mono hpages hdocuments (List.Subset.refl _)
  have hheld' : Apart pages' documents' (held :: opens) (⟨joint, work⟩ :: below) :=
    ⟨hmono.idle, hmono.joints, List.forall_mem_cons.mpr ⟨hheld, hmono.opens⟩⟩
  refine hheld'.replace fun task htask => ⟨(hnew task htask).1, (hnew task htask).2.imp_right ?_⟩
  intro heq
  rwa [heq]

/-- No other task is joined by what is at these nodes. -/
theorem Apart.joint_ne {held : Joint} (h : Apart pages documents opens (task :: below))
    (hheld : held.IsAt pages documents) : ∀ task ∈ below, task.joint ≠ held := by
  intro other hother heq
  refine h.joints other (List.mem_cons_of_mem _ hother) ?_
  rwa [heq]

/-- What is at these nodes is not in hand. -/
theorem Apart.closed {held : Joint} {live : List Task} (h : Apart pages documents opens live)
    (hheld : held.IsAt pages documents) : held ∉ opens := fun hopen => h.opens held hopen hheld

/-! ## Cells and the memo -/

/-- The cells agree with the memo, but for those that are reserved for what is in hand, and the
counts agree; nothing has been waited for. -/
structure Mirrors (opens : List Joint) (s : Stage) (t : Tasks) : Prop where
  slots : ∀ key, t.slots key =
    if .page key ∈ opens then .reserved else .ofOption (s.memo.filed key)
  expansions : ∀ key, t.expansions key =
    if .document key ∈ opens then .reserved
    else if s.memo.isExpanded key.1 key.2 then .filled () else .empty
  gets : t.gets = s.memo.gets
  finds : t.finds = s.memo.finds
  hits : t.hits = s.memo.hits
  awaited : t.awaited = 0
  invocations : t.invocations = s.course.resolutions + t.unresolved

theorem mirrors_begin (start : Fetch) : Mirrors [] ⟨.empty, .start⟩ (begin start) where
  slots key := by
    obtain ⟨node, slot⟩ := key
    cases slot <;> rfl
  expansions _ := rfl
  gets := rfl
  finds := rfl
  hits := rfl
  awaited := rfl
  invocations := rfl

/-- What is filed for a fetch that is not in hand. -/
theorem Mirrors.slot (h : Mirrors opens s t) (hclosed : .page f.key ∉ opens) :
    t.slots f.key = .ofOption (s.memo.filed f.key) := by rw [h.slots, if_neg hclosed]

/-- Tasks that resolve nothing make no difference. -/
theorem mirrors_add (hnone : tasks.countP (·.work.isOpen) = 0) :
    Mirrors opens s (t.add tasks) ↔ Mirrors opens s t := by
  have hsame : (t.add tasks).unresolved = t.unresolved := by
    rw [unresolved_add, hnone, Nat.zero_add]
  constructor
  · intro h
    exact ⟨h.slots, h.expansions, h.gets, h.finds, h.hits, h.awaited, hsame ▸ h.invocations⟩
  · intro h
    exact ⟨h.slots, h.expansions, h.gets, h.finds, h.hits, h.awaited, hsame ▸ h.invocations⟩

/-- A resolution begins. -/
theorem Mirrors.resolving (h : Mirrors opens s (t.add [⟨joint, .resolve f⟩])) :
    Mirrors opens s.resolving t where
  slots := h.slots
  expansions := h.expansions
  gets := h.gets
  finds := h.finds
  hits := h.hits
  awaited := h.awaited
  invocations := by
    have hinvocations := h.invocations
    rw [unresolved_add] at hinvocations
    change t.invocations = s.course.resolutions + (1 + t.unresolved) at hinvocations
    show t.invocations = s.course.resolutions + 1 + t.unresolved
    omega

theorem Mirrors.hit (h : Mirrors opens s t) :
    Mirrors opens ⟨s.memo.countHit, s.course⟩ t.countHit where
  slots key := by
    rw [Memo.filed_countHit]
    exact h.slots key
  expansions := h.expansions
  gets := h.gets
  finds := h.finds
  hits := congrArg (· + 1) h.hits
  awaited := h.awaited
  invocations := h.invocations

/-- The cell of a fetch is reserved, and the fetch is counted. -/
theorem Mirrors.call (h : Mirrors opens s t) (f : Fetch) (call : Call) :
    Mirrors (.page f.key :: opens) ⟨s.memo.countFetch f, s.course⟩
      ((t.setSlot f.key .reserved).countCall f call) where
  slots key := by
    show (t.setSlot f.key .reserved).slots key = _
    rw [slots_setSlot, Memo.filed_countFetch, h.slots]
    by_cases heq : key = f.key
    · rw [if_pos heq, if_pos (by rw [heq]; exact List.mem_cons_self ..)]
    · rw [if_neg heq]
      simp [heq]
  expansions key := by
    rw [show ((t.setSlot f.key .reserved).countCall f call).expansions key = t.expansions key from
      rfl, h.expansions]
    cases f <;> simp [Memo.isExpanded, Memo.countFetch]
  gets := by
    rw [Memo.gets_countFetch, ← h.gets]
    rfl
  finds := by
    rw [Memo.finds_countFetch, ← h.finds]
    rfl
  hits := by
    show t.hits = _
    rw [h.hits]
    cases f <;> rfl
  awaited := h.awaited
  invocations := h.invocations

/-- What a fetch has given is filed, and its cell is filled. -/
theorem Mirrors.file (h : Mirrors (.page f.key :: opens) s t) (hclosed : .page f.key ∉ opens)
    {found : List Entity} (hfound : f.found reply p = .ok found) :
    Mirrors opens ⟨s.memo.file f found, s.course⟩ (t.setSlot f.key (.filled found)) where
  slots key := by
    show (t.setSlot f.key (.filled found)).slots key = _
    rw [slots_setSlot, Memo.filed_file hfound, h.slots]
    by_cases heq : key = f.key
    · rw [if_pos heq, if_neg (by rw [heq]; exact hclosed), if_pos heq]
      rfl
    · rw [if_neg heq, if_neg heq]
      simp [heq]
  expansions key := by
    rw [show (t.setSlot f.key (.filled found)).expansions key = t.expansions key from rfl,
      h.expansions]
    cases f <;> simp [Memo.isExpanded, Memo.file, Memo.addEntity, Memo.addPage]
  gets := by rw [Memo.gets_file, ← h.gets]; rfl
  finds := by rw [Memo.finds_file, ← h.finds]; rfl
  hits := by
    show t.hits = _
    rw [h.hits]
    cases f <;> rfl
  awaited := h.awaited
  invocations := h.invocations

/-- The references of a document are handed out. -/
theorem Mirrors.refer (h : Mirrors opens s t) (plan : Plan) (e : Entity) (joint : Joint) :
    Mirrors (.document (plan.info.id, e.id) :: opens) s
      (((t.setExpansion (plan.info.id, e.id) .reserved).invoke (plan.references e).length).add
        (plan.resolvers e ++ [⟨joint, .finish plan e⟩])) where
  slots key := by
    show t.slots key = _
    rw [h.slots]
    simp
  expansions key := by
    show (t.setExpansion (plan.info.id, e.id) .reserved).expansions key = _
    rw [expansions_setExpansion, h.expansions]
    by_cases heq : key = (plan.info.id, e.id)
    · rw [if_pos heq, if_pos (by rw [heq]; exact List.mem_cons_self ..)]
    · rw [if_neg heq]
      simp [heq]
  gets := h.gets
  finds := h.finds
  hits := h.hits
  awaited := h.awaited
  invocations := by
    rw [unresolved_add, List.countP_append, countP_resolvers]
    have hinvocations := h.invocations
    show t.invocations + (plan.references e).length
      = s.course.resolutions + ((plan.references e).length + 0 + t.unresolved)
    omega

/-- The references of a document have been followed. -/
theorem Mirrors.note {plan : Plan} {e : Entity}
    (h : Mirrors (.document (plan.info.id, e.id) :: opens) s t)
    (hclosed : .document (plan.info.id, e.id) ∉ opens) :
    Mirrors opens ⟨s.memo.addExpanded plan.info.id e.id, s.course⟩
      (t.setExpansion (plan.info.id, e.id) (.filled ())) where
  slots key := by
    show t.slots key = _
    rw [h.slots]
    simp
    rfl
  expansions key := by
    rw [expansions_setExpansion, h.expansions]
    by_cases heq : key = (plan.info.id, e.id)
    · rw [if_pos heq, if_neg (by rw [heq]; exact hclosed)]
      simp [heq, Memo.isExpanded, Memo.addExpanded]
    · rw [if_neg heq]
      simp [heq, Memo.isExpanded, Memo.addExpanded]
  gets := h.gets
  finds := h.finds
  hits := h.hits
  awaited := h.awaited
  invocations := h.invocations

/-! ## Steps of a pass and what the tasks do -/

section

variable (reply : (call : Call) → call.Answer) (p : Permission) (limit : Nat)

/-- The tasks come to a moment of the pass: these calls have been made, and these tasks are left. -/
def Arrives (t : Tasks) (opens : List Joint) (s : Stage) (calls : List Call) (left : List Task) :
    Prop :=
  ∃ t', Reaches reply p limit t t' ∧ t'.live = left ∧ Mirrors opens s t' ∧
    t'.calls = t.calls ++ calls

/-- Where the step ends well the first tasks do the same, and leave the others. Nothing else is in
hand at these nodes. -/
def Performs (pages documents : List Nat) (tasks : List Task) (x : Scheduled α) : Prop :=
  ∀ ⦃s a s' calls opens below⦄ ⦃t : Tasks⦄, Leads reply x s a s' calls → t.live = tasks ++ below →
    Apart pages documents opens t.live → Mirrors opens s t →
    Arrives reply p limit t opens s' calls below

end

theorem Arrives.refl (mirrors : Mirrors opens s t) : Arrives reply p limit t opens s [] t.live :=
  ⟨t, .refl t, rfl, mirrors, (List.append_nil _).symm⟩

/-- The first task takes a turn and makes no call. -/
theorem arrives_of_advance {rest : Tasks} {left : List Task}
    (h : advance reply p limit rest joint work = .ok (some t')) (hleft : t'.live = left)
    (hcalls : t'.calls = rest.calls) (mirrors : Mirrors opens s t') :
    Arrives reply p limit (rest.add [⟨joint, work⟩]) opens s [] left := by
  refine ⟨t', reaches_of_advance h, hleft, mirrors, ?_⟩
  rw [List.append_nil, hcalls]
  rfl

theorem Arrives.trans {opens' : List Joint} {calls calls' : List Call} {left left' : List Task}
    (h : Arrives reply p limit t opens s calls left)
    (hnext : ∀ t₁ : Tasks, t₁.live = left → Mirrors opens s t₁ →
      Arrives reply p limit t₁ opens' s' calls' left') :
    Arrives reply p limit t opens' s' (calls ++ calls') left' := by
  obtain ⟨t₁, hreaches, hleft, mirrors, hcalls⟩ := h
  obtain ⟨t', hreaches', hleft', mirrors', hcalls'⟩ := hnext t₁ hleft mirrors
  refine ⟨t', hreaches.trans hreaches', hleft', mirrors', ?_⟩
  rw [hcalls', hcalls, List.append_assoc]

theorem Arrives.next {opens' : List Joint} {calls : List Call} {left left' : List Task}
    (h : Arrives reply p limit t opens s [] left)
    (hnext : ∀ t₁ : Tasks, t₁.live = left → Mirrors opens s t₁ →
      Arrives reply p limit t₁ opens' s' calls left') :
    Arrives reply p limit t opens' s' calls left' := h.trans hnext

theorem Performs.mono {x : Scheduled α} (h : Performs reply p limit pages documents tasks x)
    (hpages : pages ⊆ pages') (hdocuments : documents ⊆ documents') :
    Performs reply p limit pages' documents' tasks x := by
  intro s a s' calls opens below t hleads hlive apart mirrors
  exact h hleads hlive (apart.mono hpages hdocuments (List.Subset.refl _)) mirrors

/-- Steps one after another, for the items of a list, each with a task of its own. -/
theorem performs_inTurn {items : List α} {task : α → Task} {step : α → Scheduled Unit}
    (h : ∀ a ∈ items, Performs reply p limit pages documents [task a] (step a)) :
    Performs reply p limit pages documents (items.map task)
      (Scheduled.inTurn (items.map step)) := by
  induction items with
  | nil =>
    intro s a s' calls opens below t hleads hlive apart mirrors
    obtain ⟨rfl, rfl, rfl⟩ := hleads.of_pure
    obtain rfl : t.live = below := hlive
    exact .refl mirrors
  | cons item rest ih =>
    obtain ⟨hfirst, hlater⟩ := List.forall_mem_cons.mp h
    intro s a s' calls opens below t hleads hlive apart mirrors
    obtain ⟨_, s₁, calls₁, calls₂, hstep, hrest, rfl⟩ := Leads.of_bind hleads
    refine (hfirst hstep hlive apart mirrors).trans fun t₁ hlive₁ mirrors₁ => ?_
    refine ih hlater hrest hlive₁ (apart.mono ?_ ?_ ?_) mirrors₁
    · exact List.Subset.refl _
    · exact List.Subset.refl _
    · rw [hlive₁, hlive]
      exact List.subset_cons_self ..

/-- A list that is visited in its own order. -/
theorem performs_visit {items : List α} {task : α → Task} {step : α → Scheduled Unit}
    (h : ∀ a ∈ items, Performs reply p limit pages documents [task a] (step a)) :
    Performs reply p limit pages documents (items.map task)
      (Scheduled.visit .own (items.map step)) := by
  intro s a s' calls opens below t hleads hlive apart mirrors
  have hsteps : Leads reply (Scheduled.inTurn (items.map step)) s.visiting a s' calls := hleads
  refine performs_inTurn h hsteps hlive apart ?_
  exact ⟨mirrors.slots, mirrors.expansions, mirrors.gets, mirrors.finds, mirrors.hits,
    mirrors.awaited, mirrors.invocations⟩

/-- A step whose result is not looked at. -/
theorem Performs.discard {x : Scheduled α} (h : Performs reply p limit pages documents tasks x) :
    Performs reply p limit pages documents tasks (discard x) := by
  intro s a s' calls opens below t hleads hlive apart mirrors
  rw [Scheduled.discard_eq] at hleads
  obtain ⟨_, s₁, calls₁, _, hx, hdone, rfl⟩ := Leads.of_bind hleads
  obtain ⟨-, rfl, rfl⟩ := hdone.of_pure
  rw [List.append_nil]
  exact h hx hlive apart mirrors

section Resolving

/-- The task that expands a document at the node follows its references as the pass does. -/
def Expands (reply : (call : Call) → call.Answer) (p : Permission) (limit : Nat) (plan : Plan) :
    Prop :=
  ∀ joint e, Performs reply p limit plan.idsBelow plan.ids [⟨joint, .expand plan e⟩]
    (Scheduled.expand .own p plan e)

variable {plan : Plan} {id : String} {parent : Option String} {link : Filter} {calls : List Call}

/-- What is not filed is asked for, and then it is in hand. -/
theorem arrives_receive {rest : Tasks} {call : Call} (hadmitted : f.refusal? p = none)
    (hclosed : .page f.key ∉ opens) (hnew : s.memo.filed f.key = none) (hcall : f.call p = .ok call)
    (hidle : ∀ task ∈ rest.live, task.isInFlight = false)
    (mirrors : Mirrors opens s (rest.add [⟨joint, .resolve f⟩])) :
    Arrives reply p limit (rest.add [⟨joint, .resolve f⟩]) (.page f.key :: opens)
      ⟨s.memo.countFetch f, s.resolving.course⟩ [call] (⟨joint, .receive f⟩ :: rest.live) := by
  have hbegun := mirrors.resolving
  have hempty : rest.slots f.key = .empty := by
    rw [hbegun.slot hclosed]
    exact congrArg Cell.ofOption hnew
  refine ⟨_, reaches_receive hadmitted hempty hcall hidle, rfl, ?_, rfl⟩
  exact (mirrors_add rfl).mpr (hbegun.call f call)

/-- Looking a document up: a hit, or the store is asked. -/
theorem arrives_fetchOne {entity : Option Entity} {rest : Tasks}
    (hcheck : p.check plan.info.collection id = true)
    (hleads : Leads reply (Scheduled.countResolution >>= fun _ =>
      StateT.lift (Pass.fetchOne plan id)) s entity s' calls)
    (hidle : ∀ task ∈ rest.live, task.isInFlight = false)
    (hclosed : .page (Fetch.one plan id).key ∉ opens)
    (mirrors : Mirrors opens s (rest.add [⟨joint, .resolve (.one plan id)⟩])) :
    Arrives reply p limit (rest.add [⟨joint, .resolve (.one plan id)⟩]) opens s' calls
      ((Fetch.one plan id).onward joint entity.toList ++ rest.live) := by
  have hadmitted : (Fetch.one plan id).refusal? p = none := if_pos hcheck
  obtain ⟨heval, hcourse, rfl⟩ := Leads.of_lift (Scheduled.leads_count.mp hleads)
  rcases Pass.of_fetchOne heval with ⟨hfiled, hmemo, hcalls⟩ | ⟨hfiled, hreply, hmemo, hcalls⟩
  · -- a hit
    have hfilled : rest.slots (Fetch.one plan id).key = .filled entity.toList := by
      rw [mirrors.resolving.slot hclosed]
      exact congrArg (fun found => Cell.ofOption (found.map Option.toList)) hfiled
    obtain rfl : s' = ⟨s.memo.countHit, s.resolving.course⟩ := Stage.ext hmemo hcourse
    rw [hcalls]
    have hturn : advance reply p limit rest joint (.resolve (.one plan id))
        = .ok (some (rest.countHit.add ((Fetch.one plan id).onward joint entity.toList))) := by
      rw [advance, hadmitted, hfilled]
    have hhit := mirrors.resolving.hit
    exact arrives_of_advance hturn rfl rfl ((mirrors_add (countP_onward ..)).mpr hhit)
  · -- a miss
    have hfound : (Fetch.one plan id).found reply p = .ok entity.toList := by
      rw [Fetch.found, if_pos hcheck, hreply]
    have hnew : s.memo.filed (Fetch.one plan id).key = none :=
      congrArg (Option.map Option.toList) hfiled
    obtain rfl : s' = ⟨(s.memo.countFetch (.one plan id)).file (.one plan id) entity.toList,
      s.resolving.course⟩ := Stage.ext hmemo hcourse
    rw [hcalls]
    refine (arrives_receive hadmitted hclosed hnew (if_pos hcheck) hidle mirrors).trans
      fun t₁ hlive₁ mirrors₁ => ?_
    obtain ⟨rest₁, rfl, hrest₁⟩ := exists_rest hlive₁
    have hturn : advance reply p limit rest₁ joint (.receive (.one plan id))
        = .ok (some ((rest₁.setSlot (Fetch.one plan id).key (.filled entity.toList)).add
          ((Fetch.one plan id).onward joint entity.toList))) := by
      rw [advance, hfound]
      exact if_pos rfl
    have hfilled := ((mirrors_add rfl).mp mirrors₁).file hclosed hfound
    rw [← hrest₁]
    exact arrives_of_advance hturn rfl rfl ((mirrors_add (countP_onward ..)).mpr hfilled)

/-- The references of a document that has been looked up are followed, if there is one. -/
theorem performs_follow (hexpands : Expands reply p limit plan) (entity : Option Entity) :
    Performs reply p limit plan.idsBelow plan.ids ((Fetch.one plan id).onward joint entity.toList)
      (Scheduled.follow (Scheduled.expand .own p plan) entity) := by
  cases entity with
  | none =>
    intro s given s' calls opens below t hleads hlive apart mirrors
    obtain ⟨-, rfl, rfl⟩ := hleads.of_pure
    obtain rfl : t.live = below := hlive
    exact .refl mirrors
  | some e =>
    intro s given s' calls opens below t hleads hlive apart mirrors
    obtain ⟨_, s₁, calls₁, _, hexpand, hdone, rfl⟩ := Leads.of_bind hleads
    obtain ⟨-, rfl, rfl⟩ := hdone.of_pure
    rw [List.append_nil]
    exact hexpands joint e hexpand hlive apart mirrors

/-- Resolving one document. -/
theorem performs_resolveOne (hexpands : Expands reply p limit plan) :
    Performs reply p limit plan.ids plan.ids [⟨joint, .resolve (.one plan id)⟩]
      ((Fetch.one plan id).resolveBy .own p) := by
  intro s found s' calls opens below t hleads hlive apart mirrors
  obtain ⟨rest, rfl, rfl⟩ := exists_rest hlive
  rw [Fetch.resolveBy, Scheduled.one, Scheduled.resolveOne, map_eq_pure_bind] at hleads
  obtain ⟨given, s₂, calls₂, _, hresolve, hgiven, rfl⟩ := Leads.of_bind hleads
  obtain ⟨-, rfl, rfl⟩ := hgiven.of_pure
  rw [List.append_nil]
  by_cases hcheck : p.check plan.info.collection id = true
  · rw [if_pos hcheck, ← bind_assoc] at hresolve
    obtain ⟨entity, s₁, calls₁, calls₃, hfetch, hfollow, rfl⟩ := Leads.of_bind hresolve
    have hclosed : .page (Fetch.one plan id).key ∉ opens := apart.closed plan.id_mem_ids
    have hidle : ∀ task ∈ rest.live, task.isInFlight = false :=
      fun task htask => apart.idle task (List.mem_cons_of_mem _ htask)
    refine (arrives_fetchOne hcheck hfetch hidle hclosed mirrors).trans fun t₁ hlive₁ mirrors₁ => ?_
    have hnext : Apart plan.ids plan.ids opens t₁.live := by
      rw [hlive₁]
      refine apart.replace fun task htask => ?_
      obtain ⟨e, -, rfl⟩ := Fetch.mem_onward htask
      exact ⟨rfl, .inl rfl⟩
    refine performs_follow hexpands entity hfollow hlive₁ ?_ mirrors₁
    exact hnext.mono plan.idsBelow_subset (List.Subset.refl _) (List.Subset.refl _)
  · rw [if_neg hcheck] at hresolve
    exact absurd (Scheduled.leads_count.mp hresolve) Scheduled.not_leads_throw

/-- When a page has come, its documents are expanded. -/
theorem arrives_page (f : Fetch) {page : List Entity} {u : Unit}
    (hexpands : Expands reply p limit f.node) (hnodup : f.node.ids.Nodup)
    (hmany : f.isOne = false) (hfound : f.found reply p = .ok page)
    (apart : Apart f.node.ids f.node.ids opens (⟨joint, .resolve f⟩ :: below))
    (hlive : t.live = ⟨joint, .receive f⟩ :: below) (mirrors : Mirrors (.page f.key :: opens) s t)
    (hvisit : Leads reply (Scheduled.visit .own (page.map (Scheduled.expand .own p f.node))) s u s'
      calls) :
    Arrives reply p limit t (.page f.key :: opens) s' calls (⟨joint, .file f page⟩ :: below) := by
  obtain ⟨rest, rfl, rfl⟩ := exists_rest hlive
  have hturn : advance reply p limit rest joint (.receive f)
      = .ok (some (rest.add (f.members page ++ [⟨joint, .file f page⟩]))) := by
    rw [advance, hfound]
    exact if_neg (by rw [hmany]; exact Bool.false_ne_true)
  have hnone : (f.members page ++ [⟨joint, .file f page⟩] : List Task).countP
      (·.work.isOpen) = 0 := by
    rw [List.countP_append, countP_members]
    rfl
  have hkey : ¬ (Joint.page f.key).IsAt f.node.idsBelow f.node.ids := by
    show f.key.1 ∉ f.node.idsBelow
    rw [Fetch.fst_key]
    exact Plan.id_not_below hnodup
  have hmirrors : Mirrors (.page f.key :: opens) s
      (rest.add (f.members page ++ [⟨joint, .file f page⟩])) :=
    (mirrors_add hnone).mpr ((mirrors_add rfl).mp mirrors)
  refine (arrives_of_advance hturn rfl rfl hmirrors).next fun t₁ hlive₁ mirrors₁ => ?_
  have hnext : Apart f.node.idsBelow f.node.ids (.page f.key :: opens) t₁.live := by
    rw [hlive₁]
    refine apart.descend f.node.idsBelow_subset (List.Subset.refl _) hkey fun task htask => ?_
    rcases List.mem_append.mp htask with hmember | hfile
    · obtain ⟨e, -, rfl⟩ := Fetch.mem_members hmember
      exact ⟨rfl, .inr rfl⟩
    · obtain rfl := List.mem_singleton.mp hfile
      exact ⟨rfl, .inl rfl⟩
  have hvisits := performs_visit fun e (_ : e ∈ page) => hexpands (.page f.key) e
  refine hvisits hvisit ?_ hnext mirrors₁
  rw [hlive₁]
  exact List.append_assoc ..

/-- When the documents of a page have been expanded, it is filed. -/
theorem arrives_file {page : List Entity} (hfound : f.found reply p = .ok page)
    (hclosed : .page f.key ∉ opens) (hjoined : ∀ task ∈ below, task.joint ≠ .page f.key)
    (hlive : t.live = ⟨joint, .file f page⟩ :: below)
    (mirrors : Mirrors (.page f.key :: opens) s t) :
    Arrives reply p limit t opens ⟨s.memo.file f page, s.course⟩ [] below := by
  obtain ⟨rest, rfl, rfl⟩ := exists_rest hlive
  have hturn : advance reply p limit rest joint (.file f page)
      = .ok (some (rest.setSlot f.key (.filled page))) := by
    rw [advance, joins_eq_false hjoined]
    rfl
  have hmirrors := ((mirrors_add rfl).mp mirrors).file hclosed hfound
  exact arrives_of_advance hturn rfl rfl hmirrors

/-- Resolving a page: a hit, or it is searched for, its documents are expanded, and it is filed. -/
theorem performs_resolveMany (hnodup : plan.ids.Nodup) (hexpands : Expands reply p limit plan) :
    Performs reply p limit plan.ids plan.ids [⟨joint, .resolve (.many plan parent link)⟩]
      ((Fetch.many plan parent link).resolveBy .own p) := by
  intro s found s' calls opens below t hleads hlive apart mirrors
  obtain ⟨rest, rfl, rfl⟩ := exists_rest hlive
  have hclosed : .page (Fetch.many plan parent link).key ∉ opens := apart.closed plan.id_mem_ids
  have hadmitted : (Fetch.many plan parent link).refusal? p = none := rfl
  rw [Fetch.resolveBy, Scheduled.many, Scheduled.resolveMany] at hleads
  replace hleads := Scheduled.leads_look.mp (Scheduled.leads_count.mp hleads)
  rw [show s.resolving.memo = s.memo from rfl] at hleads
  cases hfiled : s.memo.page? plan.info.id parent with
  | some page =>
    -- a hit
    rw [hfiled] at hleads
    obtain ⟨-, rfl, rfl⟩ := (Scheduled.leads_change.mp hleads).of_pure
    have hfilled : rest.slots (Fetch.many plan parent link).key = .filled page := by
      rw [mirrors.resolving.slot hclosed]
      exact congrArg Cell.ofOption hfiled
    have hturn : advance reply p limit rest joint (.resolve (.many plan parent link))
        = .ok (some (rest.countHit.add ((Fetch.many plan parent link).onward joint page))) := by
      rw [advance, hadmitted, hfilled]
    have hhit := mirrors.resolving.hit
    exact arrives_of_advance hturn rfl rfl ((mirrors_add (countP_onward ..)).mpr hhit)
  | none =>
    -- a miss
    rw [hfiled] at hleads
    obtain ⟨page, s₂, calls₂, _, hfind, hthen, rfl⟩ := Leads.of_bind hleads
    obtain ⟨_, s₃, calls₃, _, hvisit, hvisited, rfl⟩ := Leads.of_bind hthen
    obtain ⟨rfl, rfl, rfl⟩ := (Scheduled.leads_change.mp hvisited).of_pure
    obtain ⟨heval, hcourse, rfl⟩ := hfind.of_lift
    obtain ⟨hmemo, hfound, call, hcall, hcalls⟩ := Pass.of_findPage parent heval
    obtain rfl : s₂ = ⟨s.memo.countFetch (.many plan parent link), s.resolving.course⟩ :=
      Stage.ext hmemo hcourse
    have hidle : ∀ task ∈ rest.live, task.isInFlight = false :=
      fun task htask => apart.idle task (List.mem_cons_of_mem _ htask)
    have hjoined : ∀ task ∈ rest.live, task.joint ≠ .page (Fetch.many plan parent link).key :=
      apart.joint_ne plan.id_mem_ids
    rw [hcalls]
    refine (arrives_receive hadmitted hclosed hfiled hcall hidle mirrors).trans
      fun t₁ hlive₁ mirrors₁ => ?_
    refine (arrives_page (.many plan parent link) hexpands hnodup rfl hfound apart hlive₁ mirrors₁
      hvisit).trans fun t₂ hlive₂ mirrors₂ => ?_
    exact arrives_file hfound hclosed hjoined hlive₂ mirrors₂

/-- Resolving what is fetched at a node, if documents there are expanded as they should. -/
theorem performs_resolve (hnodup : f.node.ids.Nodup) (hexpands : Expands reply p limit f.node) :
    Performs reply p limit f.node.ids f.node.ids [⟨joint, .resolve f⟩] (f.resolveBy .own p) := by
  cases f with
  | one node id => exact performs_resolveOne hexpands
  | many node parent link => exact performs_resolveMany hnodup hexpands

/-- When the references of a document have been resolved, this is noted. -/
theorem arrives_finish {e : Entity} (hclosed : .document (plan.info.id, e.id) ∉ opens)
    (hjoined : ∀ task ∈ below, task.joint ≠ .document (plan.info.id, e.id))
    (hlive : t.live = ⟨joint, .finish plan e⟩ :: below)
    (mirrors : Mirrors (.document (plan.info.id, e.id) :: opens) s t) :
    Arrives reply p limit t opens ⟨s.memo.addExpanded plan.info.id e.id, s.course⟩ [] below := by
  obtain ⟨rest, rfl, rfl⟩ := exists_rest hlive
  have hturn : advance reply p limit rest joint (.finish plan e)
      = .ok (some (rest.setExpansion (plan.info.id, e.id) (.filled ()))) := by
    rw [advance, joins_eq_false hjoined]
    rfl
  have hmirrors := ((mirrors_add rfl).mp mirrors).note hclosed
  exact arrives_of_advance hturn rfl rfl hmirrors

/-- The references of a document are resolved, each by its task. -/
theorem performs_references (hnodup : plan.ids.Nodup)
    (hchildren : ∀ b ∈ plan.children, b.child.ids.Nodup → Expands reply p limit b.child)
    (e : Entity) :
    Performs reply p limit plan.idsBelow plan.idsBelow (plan.resolvers e)
      (Scheduled.visit .own ((plan.references e).map fun g => discard (g.resolveBy .own p))) := by
  unfold Plan.resolvers
  refine performs_visit fun g hg => Performs.discard ?_
  obtain ⟨b, hb, hfetch⟩ := Plan.mem_references.mp hg
  obtain ⟨-, -, -, hids⟩ := Plan.child_within hb
  have hchild : b.child.ids.Nodup := Plan.nodup_child hnodup hb
  have hexpands := hchildren b hb hchild
  rw [← Plan.Branch.node_of_fetch? hfetch] at hids hchild hexpands
  have hresolve : Performs reply p limit g.node.ids g.node.ids
      [⟨.document (plan.info.id, e.id), .resolve g⟩] (g.resolveBy .own p) :=
    performs_resolve hchild hexpands
  exact hresolve.mono hids.subset hids.subset

/-- Following the references of a document. -/
theorem expands : ∀ plan : Plan, plan.ids.Nodup → Expands reply p limit plan := by
  refine Plan.induct fun plan hchildren hnodup => ?_
  intro joint e s u s' calls opens below t hleads hlive apart mirrors
  obtain ⟨rest, rfl, rfl⟩ := exists_rest hlive
  have hclosed : .document (plan.info.id, e.id) ∉ opens := apart.closed plan.id_mem_ids
  replace mirrors := (mirrors_add rfl).mp mirrors
  have hcell := mirrors.expansions (plan.info.id, e.id)
  rw [if_neg hclosed] at hcell
  rw [Scheduled.expand_eq] at hleads
  split at hleads
  · next hleaf =>
    -- nothing hangs below
    obtain ⟨-, rfl, rfl⟩ := hleads.of_pure
    have hturn : advance reply p limit rest joint (.expand plan e) = .ok (some rest) := by
      rw [advance, if_pos hleaf]
    exact arrives_of_advance hturn rfl rfl mirrors
  · next hbranches =>
    replace hleads := Scheduled.leads_look.mp hleads
    split at hleads
    · next hexpanded =>
      -- they have been followed before
      obtain ⟨-, rfl, rfl⟩ := hleads.of_pure
      have hturn : advance reply p limit rest joint (.expand plan e) = .ok (some rest) := by
        rw [advance, if_neg hbranches, hcell, if_pos hexpanded]
      exact arrives_of_advance hturn rfl rfl mirrors
    · next hnew =>
      obtain ⟨_, s₁, calls₁, _, hvisit, hnote, rfl⟩ := Leads.of_bind hleads
      obtain ⟨rfl, rfl⟩ := hnote.of_change
      have hturn : advance reply p limit rest joint (.expand plan e)
          = .ok (some (((rest.setExpansion (plan.info.id, e.id) .reserved).invoke
            (plan.references e).length).add (plan.resolvers e ++ [⟨joint, .finish plan e⟩]))) := by
        rw [advance, if_neg hbranches, hcell, if_neg hnew]
      have hjoined : ∀ task ∈ rest.live, task.joint ≠ .document (plan.info.id, e.id) :=
        apart.joint_ne plan.id_mem_ids
      refine (arrives_of_advance hturn rfl rfl (mirrors.refer plan e joint)).next
        fun t₁ hlive₁ mirrors₁ => ?_
      have hnext : Apart plan.idsBelow plan.idsBelow (.document (plan.info.id, e.id) :: opens)
          t₁.live := by
        have hhere : Apart plan.idsBelow plan.ids opens (⟨joint, .expand plan e⟩ :: rest.live) :=
          apart
        rw [hlive₁]
        refine hhere.descend (List.Subset.refl _) plan.idsBelow_subset (Plan.id_not_below hnodup)
          fun task htask => ?_
        rcases List.mem_append.mp htask with hreference | hfinish
        · obtain ⟨g, -, rfl⟩ := Plan.mem_resolvers hreference
          exact ⟨rfl, .inr rfl⟩
        · obtain rfl := List.mem_singleton.mp hfinish
          exact ⟨rfl, .inl rfl⟩
      have hsplit : t₁.live = plan.resolvers e ++ (⟨joint, .finish plan e⟩ :: rest.live) := by
        rw [hlive₁]
        exact List.append_assoc ..
      exact (performs_references hnodup hchildren e hvisit hsplit hnext mirrors₁).trans
        fun t₂ hlive₂ mirrors₂ => arrives_finish hclosed hjoined hlive₂ mirrors₂

/-- **A pass is a run of its tasks.** If a pass that begins with a fetch ends well, then so does the
run in which the first task always takes the turn, with the same calls, and it leaves its cells as
the memo has it. -/
theorem run_of_leads (limit : Nat) {start : Fetch} (hnodup : start.node.ids.Nodup)
    {found : List Entity}
    (hleads : Leads reply (start.resolveBy .own p) ⟨.empty, .start⟩ found s' calls) :
    ∃ count ended, (begin start).run reply p limit (List.replicate count 0) = .ok ended ∧
      ended.live = [] ∧ Mirrors [] s' ended ∧ ended.calls = calls := by
  have hperforms : Performs reply p limit start.node.ids start.node.ids
      [⟨.caller, .resolve start⟩] (start.resolveBy .own p) :=
    performs_resolve hnodup (expands start.node hnodup)
  have apart : Apart start.node.ids start.node.ids [] (begin start).live :=
    ⟨List.forall_mem_singleton.mpr rfl, List.forall_mem_singleton.mpr id,
      fun _ hopen => absurd hopen List.not_mem_nil⟩
  obtain ⟨ended, ⟨count, hrun⟩, hlive, mirrors, hcalls⟩ :=
    hperforms hleads rfl apart (mirrors_begin start)
  exact ⟨count, ended, hrun, hlive, mirrors, hcalls⟩

end Resolving

end Tasks

end LinkedDocs
