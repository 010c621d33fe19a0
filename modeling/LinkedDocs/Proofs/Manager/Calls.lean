import LinkedDocs.Operation
import LinkedDocs.Proofs.Manager.BulkWrite
import LinkedDocs.Proofs.Store.Sound

/-!
# What operations ask the store for

Every call that an operation can come to is `Call.Proper`, whatever the store has answered before:
documents are inserted with distinct ids, since they have been checked, and a patch never takes the
id out. So no operation can spoil a store, whichever of its calls fail:

> `Managed.sound`: a store that operations have led to is sound.
-/

namespace LinkedDocs

namespace Write

variable {α β : Type} {good : Call → Prop}

/-- All calls that the write can come to are good. -/
def OnlyAsks (good : Call → Prop) (w : Write α) : Prop :=
  ∀ announced, ((w.run).run announced).OnlyAsks good

theorem onlyAsks_pure (a : α) : OnlyAsks good (pure a : Write α) := fun _ => trivial

theorem onlyAsks_throw (error : ManagerError) : OnlyAsks good (throw error : Write α) :=
  fun _ => trivial

theorem onlyAsks_announce (notifications : List Notification) :
    OnlyAsks good (announce notifications) := fun _ => trivial

theorem onlyAsks_check (checked : Except BodyFault α) : OnlyAsks good (check checked) := by
  cases checked with
  | ok a => exact onlyAsks_pure a
  | error fault => exact onlyAsks_throw _

theorem OnlyAsks.bind {w : Write α} {f : α → Write β} (hw : OnlyAsks good w)
    (hf : ∀ a, OnlyAsks good (f a)) : OnlyAsks good (w >>= f) := by
  intro announced
  show Dialogue.OnlyAsks good (Dialogue.bind ((w.run).run announced) _)
  refine (hw announced).bind fun ended => ?_
  obtain ⟨result, left⟩ := ended
  cases result with
  | ok a => exact hf a left
  | error error => trivial

theorem onlyAsks_ask {call : Call} (h : good call) : OnlyAsks good (ask call) := by
  intro announced
  show Dialogue.OnlyAsks good (Dialogue.ask call _)
  refine ⟨h, fun answer => ?_⟩
  cases answer <;> trivial

theorem run_query (outcome : Query.Outcome α) (announced : List Notification) :
    ((query outcome).run).run announced
      = Dialogue.bind outcome fun result => .done (result.mapError .query, announced) := by
  show Dialogue.bind (Dialogue.bind (Dialogue.bind outcome _) _) _ = _
  rw [Dialogue.bind_assoc, Dialogue.bind_assoc]
  congr 1
  funext result
  cases result <;> rfl

theorem onlyAsks_query {outcome : Query.Outcome α} (h : Dialogue.OnlyAsks good outcome) :
    OnlyAsks good (query outcome) := by
  intro announced
  rw [run_query]
  exact h.bind fun _ => trivial

theorem onlyAsks_load (collection id : String) :
    OnlyAsks Call.Proper (query (Query.load collection id)) := by
  refine onlyAsks_query ?_
  rw [Query.load_eq]
  exact ⟨trivial, fun _ => trivial⟩

theorem onlyAsks_loadAll (collection : String) :
    OnlyAsks Call.Proper (query (Query.loadAll collection)) := by
  refine onlyAsks_query ?_
  rw [Query.loadAll_eq]
  exact ⟨trivial, fun _ => trivial⟩

/-- What a check lets through can be relied on. -/
theorem onlyAsks_check_bind {checked : Except BodyFault α} {f : α → Write β}
    (hf : ∀ a, checked = .ok a → OnlyAsks good (f a)) : OnlyAsks good (check checked >>= f) := by
  cases checked with
  | error fault => exact fun _ => trivial
  | ok a =>
    show OnlyAsks good (pure a >>= f)
    rw [pure_bind]
    exact hf a rfl

end Write

namespace Manager

/-- Where no id is repeated, the ids are distinct. -/
theorem nodup_of_firstRepeated {ids seen : List String} (h : firstRepeated seen ids = none) :
    ids.Nodup ∧ ∀ id ∈ ids, id ∉ seen := by
  induction ids generalizing seen with
  | nil => simp
  | cons id ids ih =>
    rw [firstRepeated] at h
    split at h
    · cases h
    · next hnew =>
      obtain ⟨hnodup, hunseen⟩ := ih h
      refine ⟨List.nodup_cons.mpr ⟨fun hmem => ?_, hnodup⟩, ?_⟩
      · exact hunseen id hmem (List.mem_cons_self ..)
      · intro other hother
        rcases List.mem_cons.mp hother with rfl | hlater
        · simpa using hnew
        · exact fun hseen => hunseen other hlater (List.mem_cons_of_mem _ hseen)

open Write

theorem onlyAsks_put (collection : String) (e : Entity) :
    OnlyAsks Call.Proper (put collection e) := by
  unfold put
  refine (onlyAsks_load collection e.id).bind fun found => ?_
  cases found with
  | none =>
    have hdistinct : (Call.insert collection [e]).Proper := by simp [Call.Proper]
    exact (onlyAsks_ask hdistinct).bind fun _ => (onlyAsks_announce _).bind fun _ =>
      onlyAsks_pure true
  | some before =>
    refine (onlyAsks_ask trivial).bind fun names => ?_
    exact (onlyAsks_ask trivial).bind fun _ => (onlyAsks_announce _).bind fun _ =>
      onlyAsks_pure false

/-- A patch does not take the id out. -/
theorem idField_not_mem_removals (patch : Fields) : idField ∉ removals patch := by
  intro hmem
  obtain ⟨pair, hpair, hname⟩ := List.mem_map.mp hmem
  have hkept := (List.mem_filter.mp hpair).2
  simp [hname] at hkept

theorem onlyAsks_patch (collection id : String) (data : Value) :
    OnlyAsks Call.Proper (patch collection id data) := by
  unfold patch
  refine (onlyAsks_check _).bind fun fields => ?_
  split
  · exact onlyAsks_pure ()
  · refine (onlyAsks_load collection id).bind fun found => ?_
    cases found with
    | none => exact onlyAsks_throw _
    | some before =>
      refine (onlyAsks_ask trivial).bind fun names => ?_
      have hkeeps : (Call.update collection id
          (.patch (settings fields) (removals fields))).Proper := idField_not_mem_removals fields
      exact (onlyAsks_ask hkeeps).bind fun _ => onlyAsks_announce _

theorem onlyAsks_removeAll (collection : String) :
    OnlyAsks Call.Proper (removeAll collection) := by
  unfold removeAll
  exact (onlyAsks_ask trivial).bind fun existing => (onlyAsks_ask trivial).bind fun _ =>
    onlyAsks_announce _

theorem onlyAsks_replaceAll (collection : String) (data : Value) :
    OnlyAsks Call.Proper (replaceAll collection data) := by
  unfold replaceAll
  refine onlyAsks_check_bind fun entities hchecked => ?_
  split
  · exact (onlyAsks_removeAll collection).bind fun _ => onlyAsks_pure false
  · refine (onlyAsks_loadAll collection).bind fun existing => ?_
    refine (onlyAsks_ask trivial).bind fun names => (onlyAsks_ask trivial).bind fun _ => ?_
    have hdistinct : (Call.insert collection entities).Proper :=
      (nodup_of_firstRepeated (firstRepeated_of_collectionOf hchecked)).1
    exact (onlyAsks_ask hdistinct).bind fun _ => (onlyAsks_announce _).bind fun _ =>
      onlyAsks_pure _

theorem onlyAsks_remove (collection id : String) :
    OnlyAsks Call.Proper (remove collection id) := by
  unfold remove
  refine (onlyAsks_ask trivial).bind fun existed => ?_
  cases existed with
  | true => exact onlyAsks_announce _
  | false => exact onlyAsks_throw _

end Manager

/-- No operation asks for anything that could spoil a store. -/
theorem Operation.onlyAsks_proper (op : Operation) : Write.OnlyAsks Call.Proper op.write := by
  cases op with
  | create collection data =>
    exact (Write.onlyAsks_check _).bind fun e => Manager.onlyAsks_put collection e
  | replace collection id data =>
    exact (Write.onlyAsks_check _).bind fun e => Manager.onlyAsks_put collection e
  | patch collection id data => exact Manager.onlyAsks_patch collection id data
  | replaceAll collection data => exact Manager.onlyAsks_replaceAll collection data
  | remove collection id => exact Manager.onlyAsks_remove collection id
  | removeAll collection => exact Manager.onlyAsks_removeAll collection

/-- An operation is led to its end, and then its announcements are handed to the sink. -/
theorem Service.perform_eq {σ τ : Type} (server : Server σ) (sink : Sink τ) (op : Operation)
    (s : Service σ τ) :
    s.perform server sink op
      = ((Write.lead server op.write [] s.store).1.1,
        ⟨(Write.lead server op.write [] s.store).2, s.selectors,
          (sink.announce (Write.lead server op.write [] s.store).1.2 s.sink).2⟩) := rfl

/-- A recorder that does not fail writes down all it is given. -/
theorem Recorder.announce_eq {r : Recorder} (up : r.failing = false) (news : List Notification) :
    (Sink.announce Recorder.sink news r).2 = { r with recorded := r.recorded ++ news } := by
  induction news generalizing r with
  | nil => simp [Sink.announce]
  | cons n news ih =>
    have hsink : Recorder.sink r n = (true, { r with recorded := r.recorded ++ [n] }) := by
      simp [Recorder.sink, up]
    rw [Sink.announce, hsink]
    show (Sink.announce Recorder.sink news { r with recorded := r.recorded ++ [n] }).2 = _
    have up' : ({ r with recorded := r.recorded ++ [n] } : Recorder).failing = false := up
    rw [ih up']
    simp

/-- An operation leaves a sound store, whichever of its calls fail. -/
theorem Operation.lead_sound {σ : Type} {server : Server σ} {store : σ → Memory}
    (fronts : server.Fronts store) (op : Operation) {announced : List Notification} {s : σ}
    (hs : (store s).Sound) : (store (Write.lead server op.write announced s).2).Sound :=
  fronts.run_sound (op.onlyAsks_proper announced) hs

/-- The content that operations have led to: from the empty store or from documents that were
accepted at the start, with any one call of each operation failing, with reads in between, and with
the store switched off and on. -/
inductive Memory.Managed : Memory → Prop where
  | empty : Managed .empty
  | seed {m : Memory} (collection : String) (documents : List Value) : Managed m →
    (m.seed collection documents).1 = .ok () → Managed (m.seed collection documents).2
  | operation {m : Memory} (op : Operation) (n : Nat) (fault : StoreError) : Managed m →
    Managed (op.write.start.run (Memory.answer.failingAt n fault) (0, m)).2.2
  | read {m : Memory} (call : Call) : Managed m → call.isRead → Managed (Memory.answer m call).2
  | switch {m : Memory} (offline : Bool) : Managed m → Managed { m with offline := offline }

namespace Memory

/-- Documents that were accepted at the start have distinct ids. -/
theorem Sound.seed {m : Memory} (h : m.Sound) {collection : String} {documents : List Value}
    (accepted : (m.seed collection documents).1 = .ok ()) :
    (m.seed collection documents).2.Sound := by
  cases hentities : entitiesOf documents with
  | error cause => simp [Memory.seed, hentities] at accepted
  | ok entities =>
    have hseed : m.seed collection documents = Memory.answer m (.insert collection entities) := by
      rw [Memory.seed, hentities]
      rfl
    rw [hseed] at accepted ⊢
    have hfree := (insert_ok (Prod.ext accepted rfl)).1
    have hdistinct : (Call.insert collection entities).Proper :=
      (List.nodup_append.mp (nodup_of_firstTaken (h.distinct collection) hfree)).2.1
    exact h.answer hdistinct

/-- A store that operations have led to is sound. -/
theorem Managed.sound {m : Memory} (h : m.Managed) : m.Sound := by
  induction h with
  | empty => exact sound_empty
  | seed collection documents _ accepted ih => exact ih.seed accepted
  | operation op n fault _ ih => exact op.lead_sound (Server.fronts_failingAt n fault) ih
  | read call _ read ih => exact ih.answer (.of_isRead read)
  | switch offline _ ih => exact ⟨ih.identified, ih.distinct, ih.tidy⟩

end Memory

end LinkedDocs
