import LinkedDocs.Proofs.Pass.Tasks

/-!
# Tasks in any order

What a pass fetches does not depend on the turns that its tasks take. `Tasks.Sound` is the invariant
of a run, and is made of three parts. All work is for what is needed (`Due`). The cells that are not
empty are those of the fetches that have been made or are about to be (`Account`), so no two of them
are for one cell. And what is needed has been fetched or is on its way (`Pursues`): for a document
that has been found, either a task is there to expand it, or its references have been handed out.
Beside these the counts are kept in balance.

> `turn_sound`: the turn of a task keeps the invariant.
> `Sound.mem_iff_needed`: when no task is left, what has been fetched is what is needed.
-/

namespace LinkedDocs

variable {reply : (call : Call) → call.Answer} {p : Permission} {limit : Nat} {start f g : Fetch}
  {t t' : Tasks} {joint : Joint} {work : Work} {tasks : List Task} {fetches : List Fetch}

/-! ## Work -/

namespace Work

/-- The fetch that a cell is reserved for and the store has not been asked for. -/
def reserved? : Work → Option Fetch
  | .ask f => some f
  | _ => none

/-- The fetch that the store has been asked for and that is not in its cell. -/
def fetching? : Work → Option Fetch
  | .receive f | .file f _ => some f
  | _ => none

/-- The next work reserves no cell, and fetches nothing but what this work fetches. -/
def Continues (work next : Work) : Prop :=
  next.reserved? = none ∧ ∀ f, next.fetching? = some f → work.fetching? = some f

/-- Whether this is a resolution that has not been counted as anything. -/
def isOpen : Work → Bool
  | .resolve _ | .settle _ | .ask _ => true
  | _ => false

section

variable (reply : (call : Call) → call.Answer) (p : Permission) (start : Fetch)

/-- The work is for something that is needed. -/
def Due : Work → Prop
  | .resolve f | .settle f | .ask f | .receive f => Needed reply p start f
  | .file f page => Needed reply p start f ∧ f.found reply p = .ok page
  | .expand plan e | .finish plan e => Met reply p start plan e

end

end Work

/-! ## Tasks that are added -/

theorem Fetch.mem_onward {found : List Entity} {task : Task} (h : task ∈ f.onward joint found) :
    ∃ e ∈ found, task = ⟨joint, .expand f.node e⟩ := by
  unfold onward at h
  split at h
  · obtain ⟨e, he, rfl⟩ := List.mem_map.mp h
    exact ⟨e, he, rfl⟩
  · exact absurd h List.not_mem_nil

theorem Fetch.mem_members {page : List Entity} {task : Task} (h : task ∈ f.members page) :
    ∃ e ∈ page, task = ⟨.page f.key, .expand f.node e⟩ := by
  obtain ⟨e, he, rfl⟩ := List.mem_map.mp h
  exact ⟨e, he, rfl⟩

theorem Plan.mem_resolvers {plan : Plan} {e : Entity} {task : Task} (h : task ∈ plan.resolvers e) :
    ∃ f ∈ plan.references e, task = ⟨.document (plan.info.id, e.id), .resolve f⟩ := by
  obtain ⟨f, hf, rfl⟩ := List.mem_map.mp h
  exact ⟨f, hf, rfl⟩

namespace Tasks

/-- The fetches that cells are reserved for and the store has not been asked for. -/
def reserved (t : Tasks) : List Fetch := t.live.filterMap (·.work.reserved?)

/-- How many resolutions have not been counted as anything. -/
def unresolved (t : Tasks) : Nat := t.live.countP (·.work.isOpen)

/-! ## What is needed -/

section

variable (reply : (call : Call) → call.Answer) (p : Permission) (start : Fetch)

/-- All work is for what is needed, and cells are filled with what needed fetches give. -/
structure Due (t : Tasks) : Prop where
  live : ∀ task ∈ t.live, task.work.Due reply p start
  filled : ∀ {key found}, t.slots key = .filled found →
    ∃ f, Needed reply p start f ∧ f.key = key ∧ f.found reply p = .ok found

end

/-- What a cell is filled with is what the needed fetch gives that the cell is for. -/
theorem Due.found (h : t.Due reply p start) (keyed : Keyed reply) (hnodup : start.node.ids.Nodup)
    (hneeded : Needed reply p start f) {found : List Entity}
    (hfilled : t.slots f.key = .filled found) : f.found reply p = .ok found := by
  obtain ⟨g, hg, hkey, hfound⟩ := h.filled hfilled
  obtain rfl := hg.unique keyed hnodup hneeded hkey
  exact hfound

/-- Adding tasks with work that is due. -/
theorem Due.add (h : t.Due reply p start) (hnew : ∀ task ∈ tasks, task.work.Due reply p start) :
    (t.add tasks).Due reply p start where
  live := List.forall_mem_append.mpr ⟨hnew, h.live⟩
  filled := h.filled

theorem Due.reserve (h : t.Due reply p start) (key : Nat × Slot) :
    (t.setSlot key .reserved).Due reply p start where
  live := h.live
  filled {other found} hfilled := by
    rw [slots_setSlot] at hfilled
    split at hfilled
    · cases hfilled
    · exact h.filled hfilled

/-- A cell is filled with what its fetch gives. -/
theorem Due.fill (h : t.Due reply p start) (hneeded : Needed reply p start f) {found : List Entity}
    (hfound : f.found reply p = .ok found) :
    (t.setSlot f.key (.filled found)).Due reply p start where
  live := h.live
  filled {key found'} hfilled := by
    rw [slots_setSlot] at hfilled
    split at hfilled
    · next hkey =>
      cases hfilled
      exact ⟨f, hneeded, hkey.symm, hfound⟩
    · exact h.filled hfilled

theorem due_onward (hneeded : Needed reply p start f) {found : List Entity}
    (hfound : f.found reply p = .ok found) :
    ∀ task ∈ f.onward joint found, task.work.Due reply p start := by
  intro task htask
  obtain ⟨e, he, rfl⟩ := Fetch.mem_onward htask
  exact ⟨f, found, hneeded, rfl, hfound, he⟩

theorem due_members (hneeded : Needed reply p start f) {page : List Entity}
    (hfound : f.found reply p = .ok page) :
    ∀ task ∈ f.members page, task.work.Due reply p start := by
  intro task htask
  obtain ⟨e, he, rfl⟩ := Fetch.mem_members htask
  exact ⟨f, page, hneeded, rfl, hfound, he⟩

theorem due_resolvers {plan : Plan} {e : Entity} (hmet : Met reply p start plan e) :
    ∀ task ∈ plan.resolvers e, task.work.Due reply p start := by
  intro task htask
  obtain ⟨g, hg, rfl⟩ := Plan.mem_resolvers htask
  exact hmet.needed hg

/-- The turn of a task makes due work of due work. -/
theorem turn_due (keyed : Keyed reply) (hnodup : start.node.ids.Nodup)
    (turn : Turn reply p t joint work t') (h : t.Due reply p start)
    (hwork : work.Due reply p start) : t'.Due reply p start := by
  cases turn with
  | hit _ filled =>
    have hcounted : t.countHit.Due reply p start := ⟨h.live, h.filled⟩
    exact hcounted.add (due_onward hwork (h.found keyed hnodup hwork filled))
  | miss => exact h.add (List.forall_mem_singleton.mpr hwork)
  | reserve => exact (h.reserve _).add (List.forall_mem_singleton.mpr hwork)
  | await filled =>
    have hcounted : t.countAwaited.Due reply p start := ⟨h.live, h.filled⟩
    exact hcounted.add (due_onward hwork (h.found keyed hnodup hwork filled))
  | @ask f call =>
    have hcounted : (t.countCall f call).Due reply p start := ⟨h.live, h.filled⟩
    exact hcounted.add (List.forall_mem_singleton.mpr hwork)
  | receiveOne _ given => exact (h.fill hwork given).add (due_onward hwork given)
  | receiveMany _ given =>
    refine h.add (List.forall_mem_append.mpr ⟨due_members hwork given, ?_⟩)
    exact List.forall_mem_singleton.mpr ⟨hwork, given⟩
  | file => exact h.fill hwork.1 hwork.2
  | leaf | known => exact h
  | @expand plan e =>
    have hopened : ((t.setExpansion (plan.info.id, e.id) .reserved).invoke
        (plan.references e).length).Due reply p start := ⟨h.live, h.filled⟩
    refine hopened.add (List.forall_mem_append.mpr ⟨due_resolvers hwork, ?_⟩)
    exact List.forall_mem_singleton.mpr hwork
  | finish => exact ⟨h.live, h.filled⟩

/-! ## What has been fetched -/

/-- What has been fetched, in the order of the calls: the cells of these fetches, and of those that
cells are reserved for, are the ones that are not empty, and no two are for one cell. -/
structure Account (p : Permission) (t : Tasks) (fetches : List Fetch) : Prop where
  calls : fetches.map (Fetch.call p) = t.calls.map .ok
  distinct : ((fetches ++ t.reserved).map Fetch.key).Nodup
  taken : ∀ key, t.slots key = .empty ↔ key ∉ (fetches ++ t.reserved).map Fetch.key
  fetching : ∀ task ∈ t.live, ∀ f, task.work.fetching? = some f → f ∈ fetches
  gets : t.gets = fetches.countP (·.isOne)
  finds : t.finds = fetches.countP (!·.isOne)

theorem continues_onward (f : Fetch) (joint : Joint) (found : List Entity) :
    ∀ task ∈ f.onward joint found, work.Continues task.work := by
  intro task htask
  obtain ⟨e, -, rfl⟩ := Fetch.mem_onward htask
  exact ⟨rfl, fun _ hnone => by cases hnone⟩

theorem continues_members (f : Fetch) (page : List Entity) :
    ∀ task ∈ f.members page, work.Continues task.work := by
  intro task htask
  obtain ⟨e, -, rfl⟩ := Fetch.mem_members htask
  exact ⟨rfl, fun _ hnone => by cases hnone⟩

theorem continues_resolvers (plan : Plan) (e : Entity) :
    ∀ task ∈ plan.resolvers e, work.Continues task.work := by
  intro task htask
  obtain ⟨f, -, rfl⟩ := Plan.mem_resolvers htask
  exact ⟨rfl, fun _ hnone => by cases hnone⟩

/-- A turn that reserves no cell and asks for nothing. -/
theorem Account.of_same (h : (t.add [⟨joint, work⟩]).Account p fetches)
    (hwork : work.reserved? = none) (hlive : t'.live = tasks ++ t.live)
    (hnew : ∀ task ∈ tasks, work.Continues task.work)
    (hslots : ∀ key, t'.slots key = .empty ↔ t.slots key = .empty) (hcalls : t'.calls = t.calls)
    (hgets : t'.gets = t.gets) (hfinds : t'.finds = t.finds) : t'.Account p fetches := by
  have hbefore : (t.add [⟨joint, work⟩]).reserved = t.reserved := List.filterMap_cons_none hwork
  have hnone : tasks.filterMap (·.work.reserved?) = [] :=
    List.filterMap_eq_nil_iff.mpr fun task htask => (hnew task htask).1
  have hafter : t'.reserved = t.reserved := by
    rw [reserved, hlive, List.filterMap_append, hnone]
    rfl
  constructor
  case calls => rw [hcalls, h.calls, add]
  case distinct =>
    rw [hafter, ← hbefore]
    exact h.distinct
  case taken =>
    intro key
    rw [hslots, hafter, ← hbefore]
    exact h.taken key
  case fetching =>
    intro task htask f hf
    rw [hlive, List.mem_append] at htask
    rcases htask with hadded | hold
    · exact h.fetching _ (List.mem_cons_self ..) f ((hnew task hadded).2 f hf)
    · exact h.fetching task (List.mem_cons_of_mem _ hold) f hf
  case gets => rw [hgets, ← h.gets, add]
  case finds => rw [hfinds, ← h.finds, add]

/-- Filling the cell of a fetch that is under way takes no cell. -/
theorem Account.fill (h : (t.add [⟨joint, work⟩]).Account p fetches)
    (hwork : work.fetching? = some f) (found : List Entity) (key : Nat × Slot) :
    (t.setSlot f.key (.filled found)).slots key = .empty ↔ t.slots key = .empty := by
  have hf : f ∈ fetches := h.fetching _ (List.mem_cons_self ..) f hwork
  have hkey : t.slots f.key ≠ .empty := by
    intro hempty
    refine (h.taken f.key).mp hempty (List.mem_map_of_mem ?_)
    exact List.mem_append_left _ hf
  rw [slots_setSlot]
  split
  · next heq =>
    rw [heq]
    constructor
    · intro hfilled
      cases hfilled
    · intro hempty
      exact absurd hempty hkey
  · exact Iff.rfl

/-- An empty cell is reserved. -/
theorem Account.reserve (h : (t.add [⟨joint, .settle f⟩]).Account p fetches)
    (hempty : t.slots f.key = .empty) :
    ((t.setSlot f.key .reserved).add [⟨joint, .ask f⟩]).Account p fetches := by
  have hperm : ((fetches ++ f :: t.reserved).map Fetch.key).Perm
      (f.key :: (fetches ++ t.reserved).map Fetch.key) := List.perm_middle.map Fetch.key
  constructor
  case calls => exact h.calls
  case distinct =>
    refine hperm.nodup_iff.mpr (List.nodup_cons.mpr ⟨?_, h.distinct⟩)
    exact (h.taken f.key).mp hempty
  case taken =>
    intro key
    show (t.setSlot f.key .reserved).slots key = .empty
      ↔ key ∉ (fetches ++ f :: t.reserved).map Fetch.key
    rw [slots_setSlot, hperm.mem_iff, List.mem_cons, not_or]
    split
    · next heq =>
      constructor
      · intro hreserved
        cases hreserved
      · intro hnot
        exact absurd heq hnot.1
    · next hne =>
      have hold : t.slots key = .empty ↔ key ∉ (fetches ++ t.reserved).map Fetch.key := h.taken key
      rw [hold]
      exact ⟨fun hnot => ⟨hne, hnot⟩, And.right⟩
  case fetching =>
    intro task htask g hg
    rcases List.mem_cons.mp htask with rfl | hold
    · cases hg
    · exact h.fetching task (List.mem_cons_of_mem _ hold) g hg
  case gets => exact h.gets
  case finds => exact h.finds

/-- The store is asked for what a cell is reserved for. -/
theorem Account.ask (h : (t.add [⟨joint, .ask f⟩]).Account p fetches) {call : Call}
    (hcall : f.call p = .ok call) :
    ((t.countCall f call).add [⟨joint, .receive f⟩]).Account p (fetches ++ [f]) := by
  have hsplit : fetches ++ [f] ++ t.reserved = fetches ++ f :: t.reserved := by
    rw [List.append_assoc, List.singleton_append]
  constructor
  case calls =>
    show (fetches ++ [f]).map (Fetch.call p) = (t.calls ++ [call]).map .ok
    rw [List.map_append, List.map_append, h.calls, List.map_singleton, List.map_singleton, hcall]
    rfl
  case distinct =>
    show ((fetches ++ [f] ++ t.reserved).map Fetch.key).Nodup
    rw [hsplit]
    exact h.distinct
  case taken =>
    intro key
    show t.slots key = .empty ↔ key ∉ (fetches ++ [f] ++ t.reserved).map Fetch.key
    rw [hsplit]
    exact h.taken key
  case fetching =>
    intro task htask g hg
    rcases List.mem_cons.mp htask with rfl | hold
    · cases hg
      exact List.mem_append_right _ (List.mem_singleton_self f)
    · exact List.mem_append_left _ (h.fetching task (List.mem_cons_of_mem _ hold) g hg)
  case gets =>
    show t.gets + [f].countP (·.isOne) = _
    rw [List.countP_append, ← h.gets]
    rfl
  case finds =>
    show t.finds + [f].countP (!·.isOne) = _
    rw [List.countP_append, ← h.finds]
    rfl

/-- The turn of a task adds to what has been fetched what the task asks the store for. -/
theorem turn_account (turn : Turn reply p t joint work t')
    (h : (t.add [⟨joint, work⟩]).Account p fetches) :
    t'.Account p (fetches ++ work.reserved?.toList) := by
  have hsame : work.reserved? = none → t'.Account p fetches →
      t'.Account p (fetches ++ work.reserved?.toList) := by
    intro hnone haccount
    rwa [hnone, Option.toList_none, List.append_nil]
  have hnothing : ∀ task ∈ ([] : List Task), work.Continues task.work :=
    fun _ htask => absurd htask List.not_mem_nil
  cases turn with
  | hit =>
    exact hsame rfl (h.of_same rfl rfl (continues_onward _ _ _) (fun _ => Iff.rfl) rfl rfl rfl)
  | miss =>
    refine hsame rfl (h.of_same rfl rfl ?_ (fun _ => Iff.rfl) rfl rfl rfl)
    exact List.forall_mem_singleton.mpr ⟨rfl, fun _ hnone => by cases hnone⟩
  | reserve empty => exact hsame rfl (h.reserve empty)
  | await =>
    exact hsame rfl (h.of_same rfl rfl (continues_onward _ _ _) (fun _ => Iff.rfl) rfl rfl rfl)
  | ask called => exact h.ask called
  | receiveOne =>
    exact hsame rfl (h.of_same rfl rfl (continues_onward _ _ _) (h.fill rfl _) rfl rfl rfl)
  | receiveMany =>
    refine hsame rfl (h.of_same rfl rfl ?_ (fun _ => Iff.rfl) rfl rfl rfl)
    refine List.forall_mem_append.mpr ⟨continues_members _ _, ?_⟩
    exact List.forall_mem_singleton.mpr ⟨rfl, fun _ hf => hf⟩
  | file =>
    exact hsame rfl (h.of_same rfl (List.nil_append _).symm hnothing (h.fill rfl _) rfl rfl rfl)
  | leaf | known | finish =>
    exact hsame rfl
      (h.of_same rfl (List.nil_append _).symm hnothing (fun _ => Iff.rfl) rfl rfl rfl)
  | expand =>
    refine hsame rfl (h.of_same rfl rfl ?_ (fun _ => Iff.rfl) rfl rfl rfl)
    refine List.forall_mem_append.mpr ⟨continues_resolvers _ _, ?_⟩
    exact List.forall_mem_singleton.mpr ⟨rfl, fun _ hnone => by cases hnone⟩

/-! ## What is to come -/

/-- Nothing is taken back: other tasks stay, and no cell becomes empty. -/
structure Grows (t t' : Tasks) : Prop where
  live : t.live ⊆ t'.live
  slots : ∀ {key}, t.slots key ≠ .empty → t'.slots key ≠ .empty
  expansions : ∀ {key}, t.expansions key ≠ .empty → t'.expansions key ≠ .empty

/-- Counting takes nothing back. -/
theorem grows_same {t₁ : Tasks} (hlive : t₁.live = t.live) (hslots : t₁.slots = t.slots)
    (hexpansions : t₁.expansions = t.expansions) : Grows t t₁ where
  live := by rw [hlive]; exact List.Subset.refl _
  slots h := by rwa [hslots]
  expansions h := by rwa [hexpansions]

theorem Grows.add {t₁ : Tasks} (h : Grows t t₁) (tasks : List Task) : Grows t (t₁.add tasks) where
  live := List.Subset.trans h.live (List.subset_append_right tasks t₁.live)
  slots := h.slots
  expansions := h.expansions

theorem grows_setSlot (t : Tasks) (key : Nat × Slot) {cell : Cell (List Entity)}
    (hcell : cell ≠ .empty) : Grows t (t.setSlot key cell) where
  live := List.Subset.refl _
  slots {other} hother := by
    rw [slots_setSlot]
    split
    · exact hcell
    · exact hother
  expansions := id

theorem grows_setExpansion (t : Tasks) (key : Nat × String) {cell : Cell Unit}
    (hcell : cell ≠ .empty) : Grows t (t.setExpansion key cell) where
  live := List.Subset.refl _
  slots := id
  expansions {other} hother := by
    rw [expansions_setExpansion]
    split
    · exact hcell
    · exact hother

theorem turn_grows (turn : Turn reply p t joint work t') : Grows t t' := by
  cases turn with
  | hit | miss | await | ask | receiveMany =>
    refine Grows.add ?_ _
    exact grows_same rfl rfl rfl
  | reserve | receiveOne => exact (grows_setSlot t _ (by simp)).add _
  | file => exact grows_setSlot t _ (by simp)
  | leaf | known => exact grows_same rfl rfl rfl
  | @expand plan e =>
    have hset : Grows t (t.setExpansion (plan.info.id, e.id) .reserved) :=
      grows_setExpansion t _ (by simp)
    refine Grows.add ?_ _
    exact ⟨hset.live, hset.slots, hset.expansions⟩
  | finish => exact grows_setExpansion t _ (by simp)

/-- A task is there to resolve the fetch, or its cell is not empty. -/
def Begun (t : Tasks) (f : Fetch) : Prop :=
  (∃ joint, ⟨joint, .resolve f⟩ ∈ t.live ∨ ⟨joint, .settle f⟩ ∈ t.live) ∨ t.slots f.key ≠ .empty

/-- A task is there to expand the document, or its references have been handed out; or there are
none. -/
def Followed (t : Tasks) (plan : Plan) (e : Entity) : Prop :=
  (∃ joint, ⟨joint, .expand plan e⟩ ∈ t.live) ∨ plan.references e = [] ∨
    t.expansions (plan.info.id, e.id) ≠ .empty

theorem Begun.mono (h : t.Begun f) (grows : Grows t t') : t'.Begun f := by
  rcases h with ⟨joint, hresolve | hsettle⟩ | hslot
  · exact .inl ⟨joint, .inl (grows.live hresolve)⟩
  · exact .inl ⟨joint, .inr (grows.live hsettle)⟩
  · exact .inr (grows.slots hslot)

theorem Followed.mono {plan : Plan} {e : Entity} (h : t.Followed plan e) (grows : Grows t t') :
    t'.Followed plan e := by
  rcases h with ⟨joint, hexpand⟩ | hnone | hopened
  · exact .inl ⟨joint, grows.live hexpand⟩
  · exact .inr (.inl hnone)
  · exact .inr (.inr (grows.expansions hopened))

/-- What has been begun stays so when one of the tasks takes its turn. -/
theorem turn_begun (turn : Turn reply p t joint work t') (h : (t.add [⟨joint, work⟩]).Begun f) :
    t'.Begun f := by
  have hrest : t.Begun f → t'.Begun f := fun hbegun => hbegun.mono (turn_grows turn)
  rcases h with ⟨other, hresolve | hsettle⟩ | hslot
  · rcases List.mem_cons.mp hresolve with heq | hold
    · cases heq
      cases turn with
      | hit _ filled =>
        refine .inr ?_
        show t.slots f.key ≠ .empty
        simp [filled]
      | miss => exact .inl ⟨joint, .inr (List.mem_cons_self ..)⟩
    · exact hrest (.inl ⟨other, .inl hold⟩)
  · rcases List.mem_cons.mp hsettle with heq | hold
    · cases heq
      refine .inr ?_
      cases turn with
      | reserve =>
        show (t.setSlot f.key .reserved).slots f.key ≠ .empty
        simp [slots_setSlot]
      | await filled =>
        show t.slots f.key ≠ .empty
        simp [filled]
    · exact hrest (.inl ⟨other, .inr hold⟩)
  · exact hrest (.inr hslot)

theorem turn_followed {plan : Plan} {e : Entity} (turn : Turn reply p t joint work t')
    (h : (t.add [⟨joint, work⟩]).Followed plan e) : t'.Followed plan e := by
  have hrest : t.Followed plan e → t'.Followed plan e :=
    fun hfollowed => hfollowed.mono (turn_grows turn)
  rcases h with ⟨other, hexpand⟩ | hnone | hopened
  · rcases List.mem_cons.mp hexpand with heq | hold
    · cases heq
      refine .inr ?_
      cases turn with
      | leaf none => exact .inl none
      | known filled => exact .inr (by simp [filled])
      | expand =>
        refine .inr ?_
        show (t.setExpansion (plan.info.id, e.id) .reserved).expansions _ ≠ .empty
        simp [expansions_setExpansion]
    · exact hrest (.inl ⟨other, hold⟩)
  · exact hrest (.inr (.inl hnone))
  · exact hrest (.inr (.inr hopened))

/-- When an answer comes, all documents in it have tasks to expand them. -/
theorem turn_received (turn : Turn reply p t joint (.receive f) t') :
    ∃ found, f.found reply p = .ok found ∧ ∀ e ∈ found, t'.Followed f.node e := by
  cases turn with
  | @receiveOne _ found one given =>
    refine ⟨found, given, fun e he => .inl ⟨joint, List.mem_append_left _ ?_⟩⟩
    rw [Fetch.onward, if_pos one]
    exact List.mem_map_of_mem he
  | @receiveMany _ page _ given =>
    refine ⟨page, given, fun e he => .inl ⟨.page f.key, ?_⟩⟩
    exact List.mem_append_left _ (List.mem_append_left _ (List.mem_map_of_mem he))

section

variable (reply : (call : Call) → call.Answer) (p : Permission) (start : Fetch)

/-- What is needed is on its way: the first fetch has been begun; the documents of a fetch that has
been made are followed, unless its answer is still to come; and where references have been handed
out, they have been begun. -/
structure Pursues (t : Tasks) (fetches : List Fetch) : Prop where
  begun : t.Begun start
  made : ∀ f ∈ fetches, (∃ joint, ⟨joint, .receive f⟩ ∈ t.live) ∨
    ∃ found, f.found reply p = .ok found ∧ ∀ e ∈ found, t.Followed f.node e
  handed : ∀ {key}, t.expansions key ≠ .empty → ∃ plan e, Met reply p start plan e ∧
    key = (plan.info.id, e.id) ∧ ∀ g ∈ plan.references e, t.Begun g
  finishing : ∀ {joint plan e}, ⟨joint, .finish plan e⟩ ∈ t.live →
    t.expansions (plan.info.id, e.id) ≠ .empty

end

/-- Where a cell for references is not empty after a turn, it was not before, or they have been
handed out. -/
theorem turn_handed (turn : Turn reply p t joint work t') {key : Nat × String}
    (h : t'.expansions key ≠ .empty) :
    t.expansions key ≠ .empty ∨ (∃ plan e, work = .expand plan e ∧ key = (plan.info.id, e.id) ∧
      ∀ g ∈ plan.references e, t'.Begun g) ∨
      ∃ plan e, work = .finish plan e ∧ key = (plan.info.id, e.id) := by
  cases turn with
  | hit | miss | reserve | await | ask | receiveOne | receiveMany | file | leaf | known =>
    exact .inl h
  | @expand plan e =>
    change (t.setExpansion (plan.info.id, e.id) .reserved).expansions key ≠ .empty at h
    rw [expansions_setExpansion] at h
    split at h
    · next hkey =>
      refine .inr (.inl ⟨plan, e, rfl, hkey, fun g hg => ?_⟩)
      refine .inl ⟨.document (plan.info.id, e.id), .inl ?_⟩
      exact List.mem_append_left _ (List.mem_append_left _ (List.mem_map_of_mem hg))
    · exact .inl h
  | @finish plan e =>
    rw [expansions_setExpansion] at h
    split at h
    · next hkey => exact .inr (.inr ⟨plan, e, rfl, hkey⟩)
    · exact .inl h

theorem turn_finishing (turn : Turn reply p t joint work t') {other : Joint} {plan : Plan}
    {e : Entity} (h : ⟨other, .finish plan e⟩ ∈ t'.live) :
    ⟨other, .finish plan e⟩ ∈ t.live ∨ t'.expansions (plan.info.id, e.id) ≠ .empty := by
  have honward : ∀ {f : Fetch} {found : List Entity},
      ⟨other, .finish plan e⟩ ∉ f.onward joint found := by
    intro f found hmem
    obtain ⟨_, -, heq⟩ := Fetch.mem_onward hmem
    cases heq
  cases turn with
  | hit | await | receiveOne => exact .inl ((List.mem_append.mp h).resolve_left honward)
  | miss | reserve | ask =>
    rcases List.mem_cons.mp h with heq | hold
    · cases heq
    · exact .inl hold
  | receiveMany =>
    rcases List.mem_append.mp h with hnew | hold
    · rcases List.mem_append.mp hnew with hmember | hfile
      · obtain ⟨_, -, heq⟩ := Fetch.mem_members hmember
        cases heq
      · cases List.mem_singleton.mp hfile
    · exact .inl hold
  | file | leaf | known | finish => exact .inl h
  | expand =>
    rcases List.mem_append.mp h with hnew | hold
    · rcases List.mem_append.mp hnew with hreference | hfinish
      · obtain ⟨_, -, heq⟩ := Plan.mem_resolvers hreference
        cases heq
      · cases List.mem_singleton.mp hfinish
        refine .inr ?_
        show (t.setExpansion (plan.info.id, e.id) .reserved).expansions _ ≠ .empty
        simp [expansions_setExpansion]
    · exact .inl hold

/-- The turn of a task leaves what is needed on its way. -/
theorem turn_pursues (turn : Turn reply p t joint work t') (hwork : work.Due reply p start)
    (h : (t.add [⟨joint, work⟩]).Pursues reply p start fetches) :
    t'.Pursues reply p start (fetches ++ work.reserved?.toList) := by
  have grows := turn_grows turn
  constructor
  case begun => exact turn_begun turn h.begun
  case made =>
    intro f hf
    rcases List.mem_append.mp hf with hold | hnew
    · rcases h.made f hold with ⟨other, hreceive⟩ | ⟨found, hfound, hfollowed⟩
      · rcases List.mem_cons.mp hreceive with heq | hstays
        · cases heq
          exact .inr (turn_received turn)
        · exact .inl ⟨other, grows.live hstays⟩
      · exact .inr ⟨found, hfound, fun e he => turn_followed turn (hfollowed e he)⟩
    · cases turn with
      | ask =>
        obtain rfl := List.mem_singleton.mp hnew
        exact .inl ⟨joint, List.mem_cons_self ..⟩
      | _ => exact absurd hnew List.not_mem_nil
  case handed =>
    intro key hkey
    have hearlier : t.expansions key ≠ .empty → ∃ plan e, Met reply p start plan e ∧
        key = (plan.info.id, e.id) ∧ ∀ g ∈ plan.references e, t'.Begun g := by
      intro hbefore
      obtain ⟨plan, e, hmet, hplace, hbegun⟩ := h.handed hbefore
      exact ⟨plan, e, hmet, hplace, fun g hg => turn_begun turn (hbegun g hg)⟩
    rcases turn_handed turn hkey with hbefore | ⟨plan, e, rfl, hplace, hbegun⟩ |
      ⟨plan, e, rfl, hplace⟩
    · exact hearlier hbefore
    · exact ⟨plan, e, hwork, hplace, hbegun⟩
    · refine hearlier ?_
      rw [hplace]
      exact h.finishing (List.mem_cons_self ..)
  case finishing =>
    intro other plan e hfinish
    rcases turn_finishing turn hfinish with hold | hopened
    · exact grows.expansions (h.finishing (List.mem_cons_of_mem _ hold))
    · exact hopened

/-! ## Counts -/

/-- Every resolution has been counted in one way, or has not been counted yet. -/
def Counted (t : Tasks) : Prop :=
  t.gets + t.finds + t.hits + t.awaited + t.unresolved = t.invocations

theorem unresolved_add (t : Tasks) (tasks : List Task) :
    (t.add tasks).unresolved = tasks.countP (·.work.isOpen) + t.unresolved := List.countP_append ..

theorem countP_onward (f : Fetch) (joint : Joint) (found : List Entity) :
    (f.onward joint found).countP (·.work.isOpen) = 0 := by
  refine List.countP_eq_zero.mpr fun task htask => ?_
  obtain ⟨e, -, rfl⟩ := Fetch.mem_onward htask
  exact Bool.false_ne_true

theorem countP_members (f : Fetch) (page : List Entity) :
    (f.members page).countP (·.work.isOpen) = 0 := by
  refine List.countP_eq_zero.mpr fun task htask => ?_
  obtain ⟨e, -, rfl⟩ := Fetch.mem_members htask
  exact Bool.false_ne_true

theorem countP_resolvers (plan : Plan) (e : Entity) :
    (plan.resolvers e).countP (·.work.isOpen) = (plan.references e).length := by
  have hall : ∀ task ∈ plan.resolvers e, task.work.isOpen = true := by
    intro task htask
    obtain ⟨f, -, rfl⟩ := Plan.mem_resolvers htask
    rfl
  rw [List.countP_eq_length.mpr hall, Plan.resolvers, List.length_map]

/-- The turn of a task keeps the counts in balance. -/
theorem turn_counted (turn : Turn reply p t joint work t') (h : (t.add [⟨joint, work⟩]).Counted) :
    t'.Counted := by
  unfold Counted at h ⊢
  rw [unresolved_add] at h
  cases turn with
  | @hit f found =>
    rw [unresolved_add, countP_onward]
    change t.gets + t.finds + t.hits + t.awaited + (1 + t.unresolved) = t.invocations at h
    show t.gets + t.finds + (t.hits + 1) + t.awaited + (0 + t.unresolved) = t.invocations
    omega
  | miss =>
    rw [unresolved_add]
    exact h
  | reserve =>
    rw [unresolved_add]
    exact h
  | @await f found =>
    rw [unresolved_add, countP_onward]
    change t.gets + t.finds + t.hits + t.awaited + (1 + t.unresolved) = t.invocations at h
    show t.gets + t.finds + t.hits + (t.awaited + 1) + (0 + t.unresolved) = t.invocations
    omega
  | @ask f call =>
    rw [unresolved_add]
    change t.gets + t.finds + t.hits + t.awaited + (1 + t.unresolved) = t.invocations at h
    show t.gets + [f].countP (·.isOne) + (t.finds + [f].countP (!·.isOne)) + t.hits + t.awaited
      + (0 + t.unresolved) = t.invocations
    have hone : [f].countP (·.isOne) + [f].countP (!·.isOne) = 1 := by cases f <;> rfl
    omega
  | receiveOne =>
    rw [unresolved_add, countP_onward]
    exact h
  | receiveMany =>
    rw [unresolved_add, List.countP_append, countP_members]
    exact h
  | file | leaf | known | finish =>
    change t.gets + t.finds + t.hits + t.awaited + (0 + t.unresolved) = t.invocations at h
    rw [Nat.zero_add] at h
    exact h
  | @expand plan e =>
    rw [unresolved_add, List.countP_append, countP_resolvers]
    change t.gets + t.finds + t.hits + t.awaited + (0 + t.unresolved) = t.invocations at h
    show t.gets + t.finds + t.hits + t.awaited + ((plan.references e).length + 0 + t.unresolved)
      = t.invocations + (plan.references e).length
    omega

/-! ## Runs -/

section

variable (reply : (call : Call) → call.Answer) (p : Permission) (start : Fetch)

/-- What holds throughout a run that begins with `start`, the tasks having fetched `fetches`. -/
structure Sound (t : Tasks) (fetches : List Fetch) : Prop where
  due : t.Due reply p start
  needed : ∀ f ∈ fetches, Needed reply p start f
  account : t.Account p fetches
  pursues : t.Pursues reply p start fetches
  counted : t.Counted

end

theorem sound_begin : (begin start).Sound reply p start [] where
  due := by
    refine ⟨List.forall_mem_singleton.mpr .refl, fun hfilled => ?_⟩
    cases hfilled
  needed f hf := absurd hf List.not_mem_nil
  account := by
    refine ⟨rfl, List.nodup_nil, fun key => ?_, List.forall_mem_singleton.mpr ?_, rfl, rfl⟩
    · exact ⟨fun _ => List.not_mem_nil, fun _ => rfl⟩
    · intro f hf
      cases hf
  pursues := by
    refine ⟨.inl ⟨.caller, .inl (List.mem_singleton_self _)⟩, fun f hf => ?_, fun hkey => ?_,
      fun hfinish => ?_⟩
    · exact absurd hf List.not_mem_nil
    · exact absurd rfl hkey
    · cases List.mem_singleton.mp hfinish
  counted := rfl

/-- The order in which the tasks stand does not matter. -/
theorem Sound.perm (h : t.Sound reply p start fetches) {live : List Task}
    (hperm : t.live.Perm live) : ({ t with live := live } : Tasks).Sound reply p start fetches := by
  have grows : Grows t { t with live := live } := ⟨hperm.subset, id, id⟩
  have hreserved : (fetches ++ t.reserved).Perm
      (fetches ++ ({ t with live := live } : Tasks).reserved) :=
    (hperm.filterMap _).append_left fetches
  constructor
  case due => exact ⟨fun task htask => h.due.live task (hperm.mem_iff.mpr htask), h.due.filled⟩
  case needed => exact h.needed
  case account =>
    constructor
    case calls => exact h.account.calls
    case distinct => exact (hreserved.map _).nodup_iff.mp h.account.distinct
    case taken =>
      intro key
      rw [← (hreserved.map _).mem_iff]
      exact h.account.taken key
    case fetching =>
      exact fun task htask => h.account.fetching task (hperm.mem_iff.mpr htask)
    case gets => exact h.account.gets
    case finds => exact h.account.finds
  case pursues =>
    constructor
    case begun => exact h.pursues.begun.mono grows
    case made =>
      intro f hf
      rcases h.pursues.made f hf with ⟨joint, hreceive⟩ | ⟨found, hfound, hfollowed⟩
      · exact .inl ⟨joint, hperm.subset hreceive⟩
      · exact .inr ⟨found, hfound, fun e he => (hfollowed e he).mono grows⟩
    case handed =>
      intro key hkey
      obtain ⟨plan, e, hmet, hplace, hbegun⟩ := h.pursues.handed hkey
      exact ⟨plan, e, hmet, hplace, fun g hg => (hbegun g hg).mono grows⟩
    case finishing => exact fun hfinish => h.pursues.finishing (hperm.mem_iff.mpr hfinish)
  case counted =>
    have hcount := hperm.countP_eq (·.work.isOpen)
    unfold Counted unresolved
    rw [← hcount]
    exact h.counted

/-- **The turn of a task keeps the invariant.** -/
theorem turn_sound (keyed : Keyed reply) (hnodup : start.node.ids.Nodup)
    (turn : Turn reply p t joint work t')
    (h : (t.add [⟨joint, work⟩]).Sound reply p start fetches) :
    t'.Sound reply p start (fetches ++ work.reserved?.toList) := by
  obtain ⟨hwork, hrest⟩ := List.forall_mem_cons.mp h.due.live
  constructor
  case due => exact turn_due keyed hnodup turn ⟨hrest, h.due.filled⟩ hwork
  case needed =>
    refine List.forall_mem_append.mpr ⟨h.needed, fun f hf => ?_⟩
    cases work with
    | ask f =>
      obtain rfl := List.mem_singleton.mp hf
      exact hwork
    | _ => exact absurd hf List.not_mem_nil
  case account => exact turn_account turn h.account
  case pursues => exact turn_pursues turn hwork h.pursues
  case counted => exact turn_counted turn h.counted

theorem step_sound (keyed : Keyed reply) (hnodup : start.node.ids.Nodup) {turn : Nat}
    (hstep : t.step reply p limit turn = .ok t')
    (h : ∃ fetches, t.Sound reply p start fetches) : ∃ fetches, t'.Sound reply p start fetches := by
  rcases step_cases hstep with rfl | ⟨task, others, hperm, hturn⟩
  · exact h
  · obtain ⟨fetches, hsound⟩ := h
    exact ⟨_, turn_sound keyed hnodup hturn (hsound.perm hperm)⟩

theorem run_sound (keyed : Keyed reply) (hnodup : start.node.ids.Nodup) {turns : List Nat}
    (h : (begin start).run reply p limit turns = .ok t) :
    ∃ fetches, t.Sound reply p start fetches :=
  run_induction (step_sound keyed hnodup) h ⟨[], sound_begin⟩

/-! ## The end of a run -/

/-- When no task is left, no cell is reserved. -/
theorem reserved_of_ended (hended : t.live = []) : t.reserved = [] := by
  rw [reserved, hended, List.filterMap_nil]

/-- When no task is left, what has been begun has been fetched. -/
theorem Sound.mem_of_begun (h : t.Sound reply p start fetches) (keyed : Keyed reply)
    (hnodup : start.node.ids.Nodup) (hended : t.live = []) (hneeded : Needed reply p start f)
    (hbegun : t.Begun f) : f ∈ fetches := by
  rcases hbegun with ⟨joint, hlive⟩ | hslot
  · rw [hended] at hlive
    rcases hlive with hresolve | hsettle
    · exact absurd hresolve List.not_mem_nil
    · exact absurd hsettle List.not_mem_nil
  · have hkey : f.key ∈ (fetches ++ t.reserved).map Fetch.key := by
      by_contra hnot
      exact hslot ((h.account.taken f.key).mpr hnot)
    rw [reserved_of_ended hended, List.append_nil] at hkey
    obtain ⟨g, hg, heq⟩ := List.mem_map.mp hkey
    obtain rfl := (h.needed g hg).unique keyed hnodup hneeded heq
    exact hg

/-- **When no task is left, what has been fetched is what is needed.** -/
theorem Sound.mem_iff_needed (h : t.Sound reply p start fetches) (keyed : Keyed reply)
    (hnodup : start.node.ids.Nodup) (hended : t.live = []) :
    f ∈ fetches ↔ Needed reply p start f := by
  refine ⟨h.needed f, fun hneeded => ?_⟩
  have hnot : ∀ {task : Task}, task ∉ t.live := by
    intro task hmem
    rw [hended] at hmem
    exact absurd hmem List.not_mem_nil
  induction hneeded with
  | refl => exact h.mem_of_begun keyed hnodup hended .refl h.pursues.begun
  | @tail f g hneeded hleads ih =>
    obtain ⟨found, hfound, e, he, hg⟩ := hleads
    have hmet : Met reply p start f.node e := ⟨f, found, hneeded, rfl, hfound, he⟩
    refine h.mem_of_begun keyed hnodup hended (hmet.needed hg) ?_
    rcases h.pursues.made f ih with ⟨joint, hreceive⟩ | ⟨found', hfound', hfollowed⟩
    · exact absurd hreceive hnot
    · obtain rfl : found = found' := Except.ok.inj (hfound.symm.trans hfound')
      rcases hfollowed e he with ⟨joint, hexpand⟩ | hnone | hopened
      · exact absurd hexpand hnot
      · rw [hnone] at hg
        exact absurd hg List.not_mem_nil
      · -- the references that were handed out under this id are those of this document
        obtain ⟨plan, e', hmet', hplace, hbegun⟩ := h.pursues.handed hopened
        obtain ⟨hnode, hid⟩ := Prod.mk.inj hplace
        obtain ⟨hplan, rfl⟩ := hmet.unique keyed hnodup hmet' hnode hid
        rw [hplan] at hg
        exact hbegun g hg

/-- No two of the fetches are for one cell. -/
theorem Sound.distinct (h : t.Sound reply p start fetches) (hended : t.live = []) :
    (fetches.map Fetch.key).Nodup := by
  have hdistinct := h.account.distinct
  rwa [reserved_of_ended hended, List.append_nil] at hdistinct

/-- When no task is left, every resolution has been counted in one way. -/
theorem Sound.counts (h : t.Sound reply p start fetches) (hended : t.live = []) :
    t.gets + t.finds + t.hits + t.awaited = t.invocations := by
  have hcounted := h.counted
  unfold Counted unresolved at hcounted
  rwa [hended, List.countP_nil, Nat.add_zero] at hcounted

end Tasks

end LinkedDocs
