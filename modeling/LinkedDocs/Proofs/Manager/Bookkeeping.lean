import LinkedDocs.Proofs.Manager.Differences
import LinkedDocs.Proofs.Manager.Histories
import LinkedDocs.Proofs.Reading.Bookkeeping

/-!
# Bookkeeping never leaves the store

Take two services whose stores differ in bookkeeping fields and in the order of fields alone. No
client can tell them apart, and no subscriber:

> `Service.bookkeeping_hidden`: every query and every read gives equal values or the same error, and
> every write has the same result, announces the same, and leaves stores that differ in their
> bookkeeping alone.

Writes are compared step by step. Two steps lead alike (`Write.LeadsAlike`) if from alike stores
they end alike, with the same announcements and alike stores again, and there is one lemma for each
building block of a write. What holds of one request holds of a history (`Service.Alike.serveAll`).
-/

namespace LinkedDocs

open Memory (answer)
open Value (Same)

/-! ## Changes of alike documents -/

namespace Change

/-- A change depends on the values in the old version, not on the order of its fields. -/
theorem between_alike {old old' : Fields} (h : ∀ name, old.get? name = old'.get? name)
    (new : Fields) (collections : List String) :
    between old new collections = between old' new collections := by
  have hchanged : changedNames old new = changedNames old' new := by
    simp only [changedNames, h]
  have hremoved : ∀ name, name ∈ removedNames old new ↔ name ∈ removedNames old' new := by
    intro name
    rw [mem_removedNames_iff, mem_removedNames_iff, h]
  have hlinks : ∀ (changed : List String) (link : String → Bool),
      sortedNames (changed.filter link ++ (removedNames old new).filter link)
        = sortedNames (changed.filter link ++ (removedNames old' new).filter link) := by
    intro changed link
    refine (pairwise_sortedNames _).eq_of_mem_iff (pairwise_sortedNames _) fun name => ?_
    simp only [mem_sortedNames, List.mem_append, List.mem_filter, hremoved]
  simp only [between, h, hchanged, hlinks]

theorem ofPatch_alike {old old' : Fields} (h : ∀ name, old.get? name = old'.get? name)
    (patch : Fields) (collections : List String) :
    ofPatch old patch collections = ofPatch old' patch collections := by
  have heffective : effective old patch = effective old' patch := by
    simp only [effective, Dict.contains, h]
  rw [ofPatch, ofPatch, heffective, between_alike h]

end Change

namespace CollectionChange

variable {before before' : List Entity} (h : List.Forall₂ Entity.Alike before before')
include h

theorem lastWithId_alike (id : String) :
    Option.Rel Entity.Alike (lastWithId id before) (lastWithId id before') :=
  forall₂_find? (fun _ _ hab => by rw [hab.id]) (List.rel_reverse h)

theorem between_alike (new : List Entity) (collections : List String) :
    between before new collections = between before' new collections := by
  have hids : before.map Entity.id = before'.map Entity.id :=
    forall₂_map_eq (fun _ _ hab => hab.id) h
  have hupdate : update? before collections = update? before' collections := by
    funext e
    have hlast := lastWithId_alike h e.id
    unfold update?
    generalize lastWithId e.id before = found at hlast ⊢
    generalize lastWithId e.id before' = found' at hlast ⊢
    cases hlast with
    | none => rfl
    | some hab =>
      rw [Option.bind_some, Option.bind_some, Change.between_alike hab]
  rw [between, between, hids, hupdate]

end CollectionChange

/-! ## Steps -/

namespace Write

variable {α β γ δ : Type} {R : α → β → Prop} {S : γ → δ → Prop}

/-- From alike stores, two steps end alike, with the same announcements and alike stores. -/
def LeadsAlike (R : α → β → Prop) (w : Write α) (w' : Write β) : Prop :=
  ∀ m m' : Memory, m.Alike m' → ∀ announced,
    EndsAlike R (lead answer w announced m).1.1 (lead answer w' announced m').1.1 ∧
      (lead answer w announced m).1.2 = (lead answer w' announced m').1.2 ∧
      (lead answer w announced m).2.Alike (lead answer w' announced m').2

theorem leadsAlike_pure (a : α) : LeadsAlike Eq (pure a) (pure a) :=
  fun _ _ h _ => ⟨.ok rfl, rfl, h⟩

theorem leadsAlike_throw (error : ManagerError) :
    LeadsAlike R (throw error : Write α) (throw error : Write β) :=
  fun _ _ h _ => ⟨.error error, rfl, h⟩

theorem leadsAlike_announce (news : List Notification) :
    LeadsAlike Eq (announce news) (announce news) := fun _ _ h _ => ⟨.ok rfl, rfl, h⟩

theorem leadsAlike_check (checked : Except BodyFault α) :
    LeadsAlike Eq (check checked) (check checked) := by
  cases checked with
  | ok a => exact leadsAlike_pure a
  | error fault => exact leadsAlike_throw _

theorem Asks.leadsAlike {call : Call} {w : Write call.Reply} {wrap : StoreError → ManagerError}
    (hw : Asks w wrap) : LeadsAlike call.RepliesAlike w w := by
  intro m m' h announced
  rw [hw, hw]
  exact ⟨(h.answer call).1.mapError wrap, rfl, (h.answer call).2⟩

theorem LeadsAlike.bind {w : Write α} {w' : Write β} {f : α → Write γ} {g : β → Write δ}
    (hw : LeadsAlike R w w') (hfg : ∀ a b, R a b → LeadsAlike S (f a) (g b)) :
    LeadsAlike S (w >>= f) (w' >>= g) := by
  intro m m' h announced
  obtain ⟨hends, hnews, hleft⟩ := hw m m' h announced
  rw [lead_bind, lead_bind]
  generalize lead answer w announced m = ended at hends hnews hleft ⊢
  generalize lead answer w' announced m' = ended' at hends hnews hleft ⊢
  obtain ⟨⟨result, news⟩, left⟩ := ended
  obtain ⟨⟨result', news'⟩, left'⟩ := ended'
  obtain rfl : news = news' := hnews
  cases hends with
  | ok hab => exact hfg _ _ hab left left' hleft news
  | error error => exact ⟨.error error, rfl, hleft⟩

/-- Steps that go on from the same result. -/
theorem LeadsAlike.bind_eq {w w' : Write α} {f : α → Write γ} {g : α → Write δ}
    (hw : LeadsAlike Eq w w') (hfg : ∀ a, LeadsAlike S (f a) (g a)) :
    LeadsAlike S (w >>= f) (w' >>= g) := by
  refine hw.bind ?_
  rintro a _ rfl
  exact hfg a

end Write

/-! ## Operations -/

namespace Manager

open Write

variable (collection : String)

theorem leadsAlike_put (e : Entity) : LeadsAlike Eq (put collection e) (put collection e) := by
  unfold put
  refine (asks_load collection e.id).leadsAlike.bind fun found found' hfound => ?_
  cases hfound with
  | none =>
    exact (asks_ask (.insert collection [e])).leadsAlike.bind_eq fun _ =>
      (leadsAlike_announce _).bind_eq fun _ => leadsAlike_pure true
  | some hab =>
    refine (asks_ask .collections).leadsAlike.bind_eq fun names => ?_
    rw [Change.between_alike hab]
    exact (asks_ask (.update collection e.id (.replace e))).leadsAlike.bind_eq fun _ =>
      (leadsAlike_announce _).bind_eq fun _ => leadsAlike_pure false

theorem leadsAlike_patch (id : String) (data : Value) :
    LeadsAlike Eq (patch collection id data) (patch collection id data) := by
  unfold patch
  refine (leadsAlike_check _).bind_eq fun fields => ?_
  split
  · exact leadsAlike_pure ()
  · refine (asks_load collection id).leadsAlike.bind fun found found' hfound => ?_
    cases hfound with
    | none => exact leadsAlike_throw _
    | some hab =>
      refine (asks_ask .collections).leadsAlike.bind_eq fun names => ?_
      rw [Change.ofPatch_alike hab]
      let change : Update := .patch (settings fields) (removals fields)
      exact (asks_ask (.update collection id change)).leadsAlike.bind_eq fun _ =>
        leadsAlike_announce _

theorem leadsAlike_removeAll : LeadsAlike Eq (removeAll collection) (removeAll collection) := by
  unfold removeAll
  refine (asks_ask (.find collection [] (.fields [idField]))).leadsAlike.bind
    fun existing existing' hexisting => ?_
  rw [forall₂_map_eq (fun _ _ hab => hab.id) hexisting]
  exact (asks_ask (.drop collection)).leadsAlike.bind_eq fun _ => leadsAlike_announce _

theorem leadsAlike_replaceAll (data : Value) :
    LeadsAlike Eq (replaceAll collection data) (replaceAll collection data) := by
  unfold replaceAll
  refine (leadsAlike_check _).bind_eq fun entities => ?_
  split
  · exact (leadsAlike_removeAll collection).bind_eq fun _ => leadsAlike_pure false
  · refine (asks_loadAll collection).leadsAlike.bind fun existing existing' hexisting => ?_
    have hempty : existing.isEmpty = existing'.isEmpty := by cases hexisting <;> rfl
    refine (asks_ask .collections).leadsAlike.bind_eq fun names => ?_
    rw [CollectionChange.between_alike hexisting, hempty]
    exact (asks_ask (.drop collection)).leadsAlike.bind_eq fun _ =>
      (asks_ask (.insert collection entities)).leadsAlike.bind_eq fun _ =>
        (leadsAlike_announce _).bind_eq fun _ => leadsAlike_pure _

theorem leadsAlike_remove (id : String) :
    LeadsAlike Eq (remove collection id) (remove collection id) := by
  unfold remove
  refine (asks_ask (.remove collection id)).leadsAlike.bind_eq fun existed => ?_
  cases existed with
  | true => exact leadsAlike_announce _
  | false => exact leadsAlike_throw _

end Manager

/-- Every operation leads alike. -/
theorem Operation.leadsAlike (op : Operation) : Write.LeadsAlike Eq op.write op.write := by
  cases op with
  | create collection data =>
    exact (Write.leadsAlike_check _).bind_eq fun e => Manager.leadsAlike_put collection e
  | replace collection id data =>
    exact (Write.leadsAlike_check _).bind_eq fun e => Manager.leadsAlike_put collection e
  | patch collection id data => exact Manager.leadsAlike_patch collection id data
  | replaceAll collection data => exact Manager.leadsAlike_replaceAll collection data
  | remove collection id => exact Manager.leadsAlike_remove collection id
  | removeAll collection => exact Manager.leadsAlike_removeAll collection

namespace Service

variable {τ α : Type} {s s' : Service Memory τ}

/-- Two services differ in what their stores note for themselves, and in nothing else. -/
structure Alike (s s' : Service Memory τ) : Prop where
  store : s.store.Alike s'.store
  selectors : s.selectors = s'.selectors
  sink : s.sink = s'.sink

/-- A read goes alike if the query does that its request is handed to. -/
theorem Alike.read {R : α → α → Prop} {query : Request → Query.Outcome α}
    (reads : ∀ r, (query r).OnlyAsks Call.isRead)
    (hquery : ∀ {m m' : Memory}, m.Alike m' → ∀ r,
      EndsAlike R ((query r).run answer m).1 ((query r).run answer m').1)
    (h : s.Alike s') (request : Value) :
    EndsAlike R (s.read answer (Manager.reading request query)).1
        (s'.read answer (Manager.reading request query)).1 ∧
      (s.read answer (Manager.reading request query)).2.Alike
        (s'.read answer (Manager.reading request query)).2 := by
  obtain ⟨m, cache, t⟩ := s
  obtain ⟨m', cache', t'⟩ := s'
  obtain ⟨hstore, rfl, rfl⟩ : m.Alike m' ∧ cache = cache' ∧ t = t' := ⟨h.store, h.selectors, h.sink⟩
  unfold Service.read Service.converse Manager.reading
  generalize (SelectorCache.requestOf request).run cache = parsed
  obtain ⟨requested, left⟩ := parsed
  cases requested with
  | error error => exact ⟨.error _, hstore, rfl, rfl⟩
  | ok r =>
    dsimp only
    rw [Dialogue.run_bind, Dialogue.run_bind]
    exact ⟨(hquery hstore r).mapError _, hstore.run (reads r), rfl, rfl⟩

/-- An operation has the same result and announces the same. -/
theorem Alike.perform (sink : Sink τ) (h : s.Alike s') (op : Operation) :
    (s.perform answer sink op).1 = (s'.perform answer sink op).1 ∧
      (s.perform answer sink op).2.Alike (s'.perform answer sink op).2 := by
  obtain ⟨hends, hnews, hleft⟩ := op.leadsAlike s.store s'.store h.store []
  rw [perform_eq, perform_eq, hnews, h.selectors, h.sink]
  exact ⟨EndsAlike.eq_iff.mp hends, hleft, rfl, rfl⟩

/-- Reading a document goes alike. -/
theorem Alike.get (h : s.Alike s') (p : Permission) (collection id : String) (request : Value) :
    let ended := s.read answer (Manager.get p collection id request)
    let ended' := s'.read answer (Manager.get p collection id request)
    EndsAlike (Option.Rel Same) ended.1 ended'.1 ∧ ended.2.Alike ended'.2 :=
  h.read (Query.reads_one p collection id) (fun hm => Query.one_alike hm p collection id) request

/-- Reading a page goes alike. -/
theorem Alike.list (h : s.Alike s') (p : Permission) (collection : String) (request : Value) :
    let ended := s.read answer (Manager.list p collection request)
    let ended' := s'.read answer (Manager.list p collection request)
    EndsAlike (List.Forall₂ Same) ended.1 ended'.1 ∧ ended.2.Alike ended'.2 :=
  h.read (Query.reads_many p collection) (fun hm => Query.many_alike hm p collection) request

/-- Whatever a client asks for, alike services stay alike. -/
theorem Alike.serve (sink : Sink τ) (h : s.Alike s') (demand : Demand) :
    (s.serve answer sink demand).Alike (s'.serve answer sink demand) := by
  cases demand with
  | change op => exact (h.perform sink op).2
  | get p collection id request => exact (h.get p collection id request).2
  | list p collection request => exact (h.list p collection request).2

/-- Whatever clients ask for, one after another, alike services stay alike. -/
theorem Alike.serveAll (sink : Sink τ) (demands : List Demand) (h : s.Alike s') :
    (s.serveAll answer sink demands).Alike (s'.serveAll answer sink demands) := by
  induction demands generalizing s s' with
  | nil => exact h
  | cons demand demands ih => exact ih (h.serve sink demand)

/-- **Bookkeeping never leaves the store.** Take two services that differ in nothing but the fields
of their documents whose names start with an underscore, and in the order of the fields. Every
document has an id.

Every query for a document or a page, whatever it names in its filters, orders, selectors and links,
gives equal values on both or the same error, and so does every read. Every operation has the same
result on both and announces the same, to whatever sink, and leaves them as alike as before, with an
id in every document. -/
theorem bookkeeping_hidden (sink : Sink τ) (h : s.Alike s') (identified : s.store.Identified) :
    (∀ (p : Permission) (collection : String) (request : Request),
      (∀ id, EndsAlike (Option.Rel Same)
        ((Query.one p collection id request).run answer s.store).1
        ((Query.one p collection id request).run answer s'.store).1) ∧
      EndsAlike (List.Forall₂ Same)
        ((Query.many p collection request).run answer s.store).1
        ((Query.many p collection request).run answer s'.store).1) ∧
    (∀ (p : Permission) (collection : String) (request : Value),
      (∀ id,
        let ended := s.read answer (Manager.get p collection id request)
        let ended' := s'.read answer (Manager.get p collection id request)
        EndsAlike (Option.Rel Same) ended.1 ended'.1 ∧ ended.2.Alike ended'.2) ∧
      let ended := s.read answer (Manager.list p collection request)
      let ended' := s'.read answer (Manager.list p collection request)
      EndsAlike (List.Forall₂ Same) ended.1 ended'.1 ∧ ended.2.Alike ended'.2) ∧
    ∀ op : Operation,
      (op.write.start.run answer s.store).1 = (op.write.start.run answer s'.store).1 ∧
        let ended := s.perform answer sink op
        let ended' := s'.perform answer sink op
        ended.1 = ended'.1 ∧ ended.2.Alike ended'.2 ∧ ended.2.store.Identified ∧
          ended'.2.store.Identified := by
  refine ⟨fun p collection request => ⟨fun id => Query.one_alike h.store p collection id request,
    Query.many_alike h.store p collection request⟩, fun p collection request =>
    ⟨fun id => h.get p collection id request, h.list p collection request⟩, fun op => ?_⟩
  obtain ⟨hends, hnews, -⟩ := op.leadsAlike s.store s'.store h.store []
  -- an operation asks for nothing that takes an id out
  have hkept : (s.perform answer sink op).2.store.Identified :=
    Server.fronts_answer.relays.run
      (fun proper hm => hm.answer (Memory.not_takesId_of_proper proper))
      (op.onlyAsks_proper []) identified
  obtain ⟨hresult, hleft⟩ := h.perform sink op
  exact ⟨Prod.ext (EndsAlike.eq_iff.mp hends) hnews, hresult, hleft, hkept,
    hleft.store.identified hkept⟩

/-- A disk as it was stored. -/
def plainDisk : Fields := ⟨[("id", .string "a"), ("vm", .string "1")], by decide⟩

/-- The same disk with a note, in another order. -/
def notedDisk : Fields :=
  ⟨[("_note", .string "full"), ("vm", .string "1"), ("id", .string "a")], by decide⟩

theorem showAlike_disks : Memory.ShowAlike plainDisk notedDisk := by
  intro name hname
  have hnote : ¬ "_note" = name := by
    rintro rfl
    exact absurd hname (by decide)
  show List.lookup name [("id", _), ("vm", _)]
    = List.lookup name [("_note", _), ("vm", _), ("id", _)]
  simp only [Dict.lookup_cons, if_neg hnote]
  by_cases hid : "id" = name
  · subst hid
    rfl
  · simp only [if_neg hid]

/-- Reading a disk with a note and without it, and changing its size. -/
theorem bookkeeping_hidden_note :
    let service (disk : Fields) : Service Memory Recorder :=
      ⟨Memory.empty.withDocuments "disk" [disk], .ofCapacity 0, .empty⟩
    let read (disk : Fields) := ((Query.one .unrestricted "disk" "a" ⟨none, .unrestricted⟩).run
      answer (service disk).store).1
    let patch (disk : Fields) := (service disk).perform answer Recorder.sink
      (.patch "disk" "a" (.object [("size", .string "2"), ("_note", .null)]))
    EndsAlike (Option.Rel Same) (read plainDisk) (read notedDisk) ∧
      read notedDisk = .ok (some (.object [("vm", .string "1"), ("id", .string "a")])) ∧
      (patch plainDisk).1 = (patch notedDisk).1 ∧
      (patch plainDisk).2.sink = (patch notedDisk).2.sink ∧
      (patch notedDisk).2.sink.recorded = [⟨"disk", "a", .updated ["size"]⟩] := by
  intro service read patch
  have hservice : (service plainDisk).Alike (service notedDisk) :=
    ⟨(Memory.Alike.refl .empty).withDocuments "disk" (.cons showAlike_disks .nil), rfl, rfl⟩
  have identified : (service plainDisk).store.Identified := by decide +kernel
  obtain ⟨hqueries, -, hoperations⟩ := bookkeeping_hidden Recorder.sink hservice identified
  obtain ⟨-, hresult, hafter, -⟩ := hoperations
    (.patch "disk" "a" (.object [("size", .string "2"), ("_note", .null)]))
  exact ⟨(hqueries .unrestricted "disk" ⟨none, .unrestricted⟩).1 "a", by decide +kernel, hresult,
    hafter.sink, by decide +kernel⟩

end Service

end LinkedDocs
