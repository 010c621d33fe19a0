import LinkedDocs.Proofs.Manager.Endings

/-!
# Writes that succeed

The ways in which a write can end are listed elsewhere; here is when the failures among them are out
of the question. The store has to be sound and within reach, and answers by itself. Then storing a
document, replacing a collection by what passes the checks, and deleting a document that is there
succeed.

> `Operation.ends_of_succeeds`: such a write ends in one of its successful ways, and leaves a store
> that is again sound and within reach, so that the next one can follow.
-/

namespace LinkedDocs

open Memory (answer storedId hasId)

namespace Memory

variable {m m' : Memory} {collection id : String}

/-! ## Calls that succeed -/

/-- The store answers the call with a success. -/
def Accepts (m : Memory) (call : Call) : Prop := ∃ reply m', answer m call = (.ok reply, m')

theorem accepts_of_reply {call : Call} {reply : call.Reply} (h : m.reply call = .ok reply) :
    m.Accepts call := ⟨reply, _, Prod.ext h rfl⟩

theorem accepts_get (identified : m.Identified) (on : m.offline = false) (p : Projection) :
    m.Accepts (.get collection id p) := accepts_of_reply (reply_get identified on collection id p)

theorem accepts_find (identified : m.Identified) (on : m.offline = false) (filter : Filter)
    (p : Projection) : m.Accepts (.find collection filter p) :=
  accepts_of_reply (reply_find identified on collection filter p)

theorem accepts_collections (on : m.offline = false) : m.Accepts .collections := by
  refine ⟨m.listing, m, ?_⟩
  simp [answer, names, on, listing]

theorem accepts_drop (on : m.offline = false) : m.Accepts (.drop collection) := by
  refine ⟨m.collections.contains collection, m.without collection, ?_⟩
  simp [answer, drop, on, without]

theorem accepts_remove (on : m.offline = false) : m.Accepts (.remove collection id) := by
  simp only [Accepts, answer, remove, on, Bool.false_eq_true, if_false]
  split <;> exact ⟨_, _, rfl⟩

/-- Ids that are not taken can be inserted. -/
theorem accepts_insert (on : m.offline = false) {entities : List Entity}
    (free : firstTaken ((m.documents collection).filterMap storedId) entities = none) :
    m.Accepts (.insert collection entities) := by
  simp only [Accepts, answer, insert, on, Bool.false_eq_true, if_false, free]
  exact ⟨_, _, rfl⟩

/-- A document can be replaced by one with its id, whether it is there or not. -/
theorem accepts_replace (on : m.offline = false) (e : Entity) :
    m.Accepts (.update collection e.id (.replace e)) := by
  simp only [Accepts, answer, update, on, Bool.false_eq_true, if_false]
  split
  · exact ⟨_, _, rfl⟩
  · simp only [changed, if_true]
    exact ⟨_, _, rfl⟩

/-- No call switches the store. -/
theorem offline_answer (m : Memory) (call : Call) : (answer m call).2.offline = m.offline := by
  cases off : m.offline with
  | true => rw [answer_of_offline off, off]
  | false =>
    cases call with
    | get | find | drop => simp [answer, get, find, drop, off]
    | collections => simp [answer, names, off]
    | insert collection entities =>
      simp only [answer, insert, off, Bool.false_eq_true, if_false]
      split
      · rfl
      · exact off
    | update collection id change =>
      simp only [answer, update, off, Bool.false_eq_true, if_false]
      split
      · exact off
      · split
        · exact off
        · rfl
    | remove collection id =>
      simp only [answer, remove, off, Bool.false_eq_true, if_false]
      split <;> exact off

end Memory

theorem Dialogue.offline_run {α : Type} (d : Dialogue α) (m : Memory) :
    (d.run answer m).2.offline = m.offline := by
  induction d generalizing m with
  | done a => rfl
  | ask call next ih => exact (ih _ _).trans (Memory.offline_answer m call)

/-! ## Writes that succeed -/

namespace Write

variable {α β : Type} {m : Memory}

/-- Led with the store, the write succeeds. -/
def Succeeds (m : Memory) (w : Write α) : Prop :=
  ∀ announced, ∃ a, (lead answer w announced m).1.1 = .ok a

theorem succeeds_pure (a : α) : Succeeds m (pure a) := fun _ => ⟨a, rfl⟩

theorem succeeds_announce (news : List Notification) : Succeeds m (announce news) :=
  fun _ => ⟨_, rfl⟩

theorem succeeds_announce_bind {news : List Notification} {f : PUnit → Write β}
    (h : Succeeds m (f ⟨⟩)) : Succeeds m (announce news >>= f) := by
  intro announced
  rw [lead_bind, lead_announce]
  exact h _

theorem succeeds_check_bind {checked : Except BodyFault α} {a : α} {f : α → Write β}
    (passes : checked = .ok a) (h : Succeeds m (f a)) : Succeeds m (check checked >>= f) := by
  intro announced
  rw [lead_bind, lead_check, passes]
  exact h announced

/-- A call that the store accepts is followed by what comes after it. -/
theorem Asks.succeeds_bind {call : Call} {w : Write call.Reply} {wrap : StoreError → ManagerError}
    {f : call.Reply → Write β} (hw : Asks w wrap) (accepts : m.Accepts call)
    (h : ∀ reply m', answer m call = (.ok reply, m') → Succeeds m' (f reply)) :
    Succeeds m (w >>= f) := by
  intro announced
  obtain ⟨reply, m', hanswer⟩ := accepts
  rw [lead_bind, hw, hanswer]
  exact h reply m' hanswer announced

end Write

namespace Manager

open Write

variable {m : Memory} {collection id : String} (sound : m.Sound) (on : m.offline = false)

include sound on

theorem succeeds_put (e : Entity) : Succeeds m (put collection e) := by
  unfold put
  refine (asks_load collection e.id).succeeds_bind
    (Memory.accepts_get sound.identified on .all) fun found m₁ hget => ?_
  have same₁ : m.SameContent m₁ :=
    Memory.sameContent_of_read (.get collection e.id .all) (.refl m) trivial hget
  have on₁ : m₁.offline = false := same₁.2.trans on
  cases found with
  | none =>
    -- nothing has the id, so it is not taken
    have hfree : Memory.firstTaken ((m₁.documents collection).filterMap storedId) [e] = none := by
      have hnot : e.id ∉ (m₁.documents collection).filterMap storedId := by
        rw [same₁.documents, List.mem_filterMap]
        rintro ⟨d, hd, hid⟩
        exact Memory.get_missing sound.identified hget d hd hid
      simp [Memory.firstTaken, hnot]
    exact (asks_ask _).succeeds_bind (Memory.accepts_insert on₁ hfree) fun _ _ _ =>
      succeeds_announce_bind (succeeds_pure true)
  | some before =>
    refine (asks_ask .collections).succeeds_bind (Memory.accepts_collections on₁)
      fun names m₂ hnames => ?_
    have on₂ : m₂.offline = false := (Memory.sameContent_of_collections same₁ hnames).2.trans on
    exact (asks_ask _).succeeds_bind (Memory.accepts_replace on₂ e) fun _ _ _ =>
      succeeds_announce_bind (succeeds_pure false)

omit sound in
theorem succeeds_remove (there : ∃ d ∈ m.documents collection, storedId d = some id) :
    Succeeds m (remove collection id) := by
  unfold remove
  refine (asks_ask _).succeeds_bind (Memory.accepts_remove on) fun existed m₁ hremove => ?_
  obtain ⟨d, hd, hid⟩ := there
  obtain rfl : existed = true := by
    rw [(Memory.remove_ok hremove).1, List.any_eq_true]
    exact ⟨d, hd, Memory.hasId_iff.mpr hid⟩
  exact succeeds_announce _

theorem succeeds_removeAll : Succeeds m (removeAll collection) := by
  unfold removeAll
  refine (asks_ask _).succeeds_bind (Memory.accepts_find sound.identified on _ _)
    fun existing m₁ hfind => ?_
  have on₁ : m₁.offline = false := (Memory.sameContent_of_find (.refl m) hfind).2.trans on
  exact (asks_ask _).succeeds_bind (Memory.accepts_drop on₁) fun _ _ _ => succeeds_announce _

theorem succeeds_replaceAll {data : Value} {entities : List Entity}
    (valid : collectionOf data = .ok entities) : Succeeds m (replaceAll collection data) := by
  unfold replaceAll
  refine succeeds_check_bind valid ?_
  cases entities with
  | nil =>
    intro announced
    obtain ⟨a, h⟩ := @succeeds_removeAll m collection sound on announced
    show ∃ b, (lead answer (removeAll collection >>= fun _ => pure false) announced m).1.1 = .ok b
    rw [lead_bind]
    cases hended : lead answer (removeAll collection) announced m with
    | mk ended m' =>
      obtain ⟨result, left⟩ := ended
      rw [hended] at h
      obtain rfl : result = .ok a := h
      exact ⟨false, rfl⟩
  | cons e rest =>
    -- the search, the names, the drop and the insertion
    refine (asks_loadAll collection).succeeds_bind (Memory.accepts_find sound.identified on _ _)
      fun existing m₁ hfind => ?_
    have same₁ : m.SameContent m₁ := Memory.sameContent_of_find (.refl m) hfind
    refine (asks_ask .collections).succeeds_bind (Memory.accepts_collections (same₁.2.trans on))
      fun names m₂ hnames => ?_
    have same₂ : m.SameContent m₂ := Memory.sameContent_of_collections same₁ hnames
    refine (asks_ask _).succeeds_bind (Memory.accepts_drop (same₂.2.trans on))
      fun existed m₃ hdrop => ?_
    have on₃ : m₃.offline = false := by
      rw [(Memory.drop_ok hdrop).2]
      exact same₂.2.trans on
    have haccepts : m₃.Accepts (.insert collection (e :: rest)) := by
      have hok := Memory.insert_of_distinct on₃ (Memory.drop_rewrites hdrop).self
        (firstRepeated_of_collectionOf valid)
      exact ⟨(), _, Prod.ext hok rfl⟩
    exact (asks_ask _).succeeds_bind haccepts fun _ _ _ =>
      succeeds_announce_bind (succeeds_pure _)

end Manager

namespace Operation

variable {m : Memory}

/-- A write that succeeds ends in one of its successful ways, and leaves a store that is sound and
as much within reach as before. -/
theorem ends_of_succeeds (sound : m.Sound) {op : Operation} (h : Write.Succeeds m op.write) :
    ∃ reply news m', Write.lead answer op.write [] m = ((.ok reply, news), m') ∧
      op.Ends (Server.Faulty answer id) m m' (.ok reply) news ∧ m'.Sound ∧
      m'.offline = m.offline := by
  obtain ⟨reply, hreply⟩ := h []
  cases hlead : Write.lead answer op.write [] m with
  | mk ended m' =>
    obtain ⟨result, news⟩ := ended
    rw [hlead] at hreply
    obtain rfl : result = .ok reply := hreply
    have fronts := Server.fronts_answer
    obtain ⟨_, rfl, hends⟩ := op.lead_ends fronts (s := m) sound hlead
    have sound' : (Write.lead answer op.write [] m).2.Sound := op.lead_sound fronts (s := m) sound
    have offline' := Dialogue.offline_run ((op.write.run).run []) m
    rw [show ((op.write.run).run []).run answer m = _ from hlead] at offline'
    rw [hlead] at sound'
    exact ⟨reply, _, m', rfl, hends, sound', offline'⟩

end Operation

end LinkedDocs
