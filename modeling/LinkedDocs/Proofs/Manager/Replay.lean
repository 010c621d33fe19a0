import LinkedDocs.Proofs.Manager.Endings
import Mathlib.Data.Finset.Basic
import Mathlib.Data.Finset.Dedup
import Mathlib.Data.Finset.Lattice.Lemmas

/-!
# Replaying the announcements

Whoever has listened from the start knows which documents there are: it keeps a set of ids for each
collection, adds an id that is announced as created, takes out one that is announced as deleted,
and has nothing to do for an update. `replay` does this for a list of notifications; `Coherent`
says that none of them comes as a surprise, so that nothing is created twice and nothing is updated
or deleted that is not there.

An operation `Tracks` the ids if its announcements are coherent from the sets before it and replay
to the sets after it. Every ending of every write does so, and so does a history:

> `recorded_replays`: what a sink has recorded of any history is coherent and replays to the ids
> that are stored.
-/

namespace LinkedDocs

/-- For each collection a set of ids. -/
abbrev IdSets := String → Finset String

namespace IdSets

/-- Nothing is there. -/
def empty : IdSets := fun _ => ∅

/-- What a notification does to the sets. -/
def apply (sets : IdSets) (n : Notification) : IdSets :=
  match n.event with
  | .created => Function.update sets n.collection (insert n.id (sets n.collection))
  | .deleted => Function.update sets n.collection ((sets n.collection).erase n.id)
  | .updated _ => sets

/-- What notifications do to the sets, one after another. -/
def replay (sets : IdSets) (news : List Notification) : IdSets := news.foldl apply sets

/-- What is created is not there, and what is deleted or updated is. -/
def Fits (sets : IdSets) (n : Notification) : Prop :=
  match n.event with
  | .created => n.id ∉ sets n.collection
  | .deleted | .updated _ => n.id ∈ sets n.collection

instance (sets : IdSets) : (n : Notification) → Decidable (sets.Fits n)
  | ⟨collection, id, .created⟩ => inferInstanceAs (Decidable (id ∉ sets collection))
  | ⟨collection, id, .deleted⟩ => inferInstanceAs (Decidable (id ∈ sets collection))
  | ⟨collection, id, .updated _⟩ => inferInstanceAs (Decidable (id ∈ sets collection))

/-- Each notification fits the sets as they are when it comes. -/
def Coherent (sets : IdSets) : List Notification → Prop
  | [] => True
  | n :: news => sets.Fits n ∧ (sets.apply n).Coherent news

/-- Notifications are gone through one after another. -/
def decideCoherent (sets : IdSets) : (news : List Notification) → Decidable (sets.Coherent news)
  | [] => .isTrue trivial
  | n :: news =>
    have := decideCoherent (sets.apply n) news
    inferInstanceAs (Decidable (sets.Fits n ∧ (sets.apply n).Coherent news))

instance (sets : IdSets) (news : List Notification) : Decidable (sets.Coherent news) :=
  decideCoherent sets news

/-- The notifications are coherent and lead from the sets before to those after. -/
structure Tracks (before : IdSets) (news : List Notification) (after : IdSets) : Prop where
  coherent : before.Coherent news
  replayed : before.replay news = after

variable {sets sets' sets'' : IdSets} {news news' : List Notification} {collection : String}

theorem Tracks.nil (sets : IdSets) : Tracks sets [] sets := ⟨trivial, rfl⟩

theorem Tracks.cons {n : Notification} (fits : sets.Fits n)
    (h : Tracks (sets.apply n) news sets') : Tracks sets (n :: news) sets' :=
  ⟨⟨fits, h.coherent⟩, h.replayed⟩

theorem Tracks.append (h : Tracks sets news sets') (h' : Tracks sets' news' sets'') :
    Tracks sets (news ++ news') sets'' := by
  induction news generalizing sets with
  | nil =>
    obtain ⟨-, rfl⟩ := h
    exact h'
  | cons n news ih =>
    obtain ⟨⟨hfits, hcoherent⟩, hreplayed⟩ := h
    exact .cons hfits (ih ⟨hcoherent, hreplayed⟩)

/-! ## Announcements of one kind -/

theorem tracks_created {ids : List String} (nodup : ids.Nodup)
    (free : ∀ id ∈ ids, id ∉ sets collection) :
    Tracks sets (ids.map fun id => ⟨collection, id, .created⟩)
      (Function.update sets collection (sets collection ∪ ids.toFinset)) := by
  induction ids generalizing sets with
  | nil =>
    rw [List.toFinset_nil, Finset.union_empty, Function.update_eq_self]
    exact .nil sets
  | cons id ids ih =>
    obtain ⟨hid, hrest⟩ := List.nodup_cons.mp nodup
    refine .cons (free id (List.mem_cons_self ..)) ?_
    -- the ids after the first are still free once that is there
    have hfree : ∀ other ∈ ids,
        other ∉ Function.update sets collection (insert id (sets collection)) collection := by
      intro other hother
      rw [Function.update_self, Finset.mem_insert, not_or]
      refine ⟨?_, free other (List.mem_cons_of_mem _ hother)⟩
      intro heq
      exact hid (heq ▸ hother)
    have htracks := ih hrest hfree
    rwa [Function.update_idem, Function.update_self, Finset.insert_union_comm,
      ← List.toFinset_cons] at htracks

theorem tracks_deleted {ids : List String} (nodup : ids.Nodup)
    (there : ∀ id ∈ ids, id ∈ sets collection) :
    Tracks sets (Notification.ofDeleted collection ids)
      (Function.update sets collection (sets collection \ ids.toFinset)) := by
  induction ids generalizing sets with
  | nil =>
    rw [List.toFinset_nil, Finset.sdiff_empty, Function.update_eq_self]
    exact .nil sets
  | cons id ids ih =>
    obtain ⟨hid, hrest⟩ := List.nodup_cons.mp nodup
    refine .cons (there id (List.mem_cons_self ..)) ?_
    -- the ids after the first are still there once that is gone
    have hthere : ∀ other ∈ ids,
        other ∈ Function.update sets collection ((sets collection).erase id) collection := by
      intro other hother
      rw [Function.update_self, Finset.mem_erase]
      refine ⟨?_, there other (List.mem_cons_of_mem _ hother)⟩
      intro heq
      exact hid (heq ▸ hother)
    have htracks := ih hrest hthere
    rwa [Function.update_idem, Function.update_self, Finset.erase_sdiff_comm,
      ← Finset.sdiff_insert, ← List.toFinset_cons] at htracks

/-- Updates of documents that are there change nothing. -/
theorem tracks_updated
    (h : ∀ n ∈ news, (∃ names, n.event = .updated names) ∧ n.id ∈ sets n.collection) :
    Tracks sets news sets := by
  induction news with
  | nil => exact .nil sets
  | cons n news ih =>
    obtain ⟨⟨names, hevent⟩, hthere⟩ := h n (List.mem_cons_self ..)
    have hfits : sets.Fits n := by
      unfold Fits
      rwa [hevent]
    have happly : sets.apply n = sets := by
      unfold apply
      rw [hevent]
    refine .cons hfits ?_
    rw [happly]
    exact ih fun other hother => h other (List.mem_cons_of_mem _ hother)

end IdSets

/-! ## Ids that are stored -/

namespace Memory

variable {m m' : Memory} {collection id : String}

/-- The ids of the documents. -/
def storedIds (m : Memory) : IdSets :=
  fun collection => ((m.documents collection).filterMap storedId).toFinset

theorem mem_storedIds {m : Memory} {collection id : String} :
    id ∈ m.storedIds collection ↔ ∃ d ∈ m.documents collection, storedId d = some id := by
  rw [storedIds, List.mem_toFinset, List.mem_filterMap]

/-- Where the documents are the same, nothing has to be announced. -/
theorem SameDocuments.tracks (same : m.SameDocuments m') :
    IdSets.Tracks m.storedIds [] m'.storedIds := by
  have hids : m'.storedIds = m.storedIds := by
    funext collection
    rw [storedIds, same collection, storedIds]
  rw [hids]
  exact .nil _

theorem Rewritten.storedIds {documents : List Fields} (h : m.Rewritten m' collection documents) :
    m'.storedIds
      = Function.update m.storedIds collection (documents.filterMap storedId).toFinset := by
  funext other
  by_cases hother : other = collection
  · subst hother
    rw [Function.update_self, Memory.storedIds, h.self]
  · rw [Function.update_of_ne hother, Memory.storedIds, h.other hother, Memory.storedIds]

/-- Where a document gives way to another with its id, the ids stay. -/
theorem Exchanged.storedIds {old new : Fields} (h : m.Exchanged m' collection id old new) :
    m'.storedIds = m.storedIds ∧ id ∈ m.storedIds collection := by
  obtain ⟨front, back, hdocuments, hrewritten⟩ := h.place
  constructor
  · have hids : (front ++ new :: back).filterMap storedId
        = (front ++ old :: back).filterMap storedId := by
      rw [List.filterMap_append, List.filterMap_append, List.filterMap_cons_some h.id_new,
        List.filterMap_cons_some h.id_old]
    rw [hrewritten.storedIds, hids, ← hdocuments]
    exact Function.update_eq_self collection m.storedIds
  · refine mem_storedIds.mpr ⟨old, ?_, h.id_old⟩
    rw [hdocuments]
    exact List.mem_append_right _ (List.mem_cons_self ..)

end Memory

/-! ## Writes -/

namespace Manager

open Memory (storedId)
open IdSets (Tracks)

variable {m m' : Memory} {collection id : String} {news : List Notification}

theorem tracks_updated? {sets : IdSets} (change : Change) (there : id ∈ sets collection) :
    Tracks sets (Notification.updated? collection id change).toList sets := by
  refine IdSets.tracks_updated fun n hn => ?_
  rw [Notification.eq_of_mem_updated? hn]
  exact ⟨⟨_, rfl⟩, there⟩

theorem PutEnd.tracks {body : Except BodyFault Entity} {result : Except ManagerError Bool}
    (h : PutEnd m m' collection body result news) :
    Tracks m.storedIds news m'.storedIds := by
  cases h with
  | failed error same => exact same.tracks
  | added e checked free new shown rewritten =>
    have hid : storedId new = some e.id := by
      rw [Memory.storedId_of_visible_eq shown, Memory.storedId_fields]
    have hfree : e.id ∉ m.storedIds collection := by
      intro hmem
      obtain ⟨d, hd, hdid⟩ := Memory.mem_storedIds.mp hmem
      exact free d hd hdid
    have hids : ((m.documents collection ++ [new]).filterMap storedId).toFinset
        = m.storedIds collection ∪ [e.id].toFinset := by
      rw [List.filterMap_append, List.toFinset_append, List.filterMap_cons_some hid]
      rfl
    rw [rewritten.storedIds, hids]
    exact IdSets.tracks_created (List.nodup_singleton e.id) (by simpa using hfree)
  | exchanged e checked old new exchanged shown =>
    obtain ⟨hids, hthere⟩ := exchanged.storedIds
    rw [hids]
    exact tracks_updated? _ hthere

theorem PatchEnd.tracks {data : Value} {result : Except ManagerError Unit}
    (h : PatchEnd m m' collection id data result news) :
    Tracks m.storedIds news m'.storedIds := by
  cases h with
  | failed _ same | idle _ _ _ same => exact same.tracks
  | exchanged fields checked blank old new exchanged patches =>
    obtain ⟨hids, hthere⟩ := exchanged.storedIds
    rw [hids]
    exact tracks_updated? _ hthere

theorem RemoveEnd.tracks (distinct : m.Distinct) {result : Except ManagerError Unit}
    (h : RemoveEnd m m' collection id result news) :
    Tracks m.storedIds news m'.storedIds := by
  cases h with
  | failed error same => exact same.tracks
  | removed front back old id_old place rewritten =>
    have hthere : id ∈ m.storedIds collection :=
      Memory.mem_storedIds.mpr ⟨old, by simp [place], id_old⟩
    have hothers := distinct.storedId_ne place id_old
    have hids : ((front ++ back).filterMap storedId).toFinset
        = m.storedIds collection \ [id].toFinset := by
      ext other
      simp only [Memory.storedIds, place, List.mem_toFinset, List.mem_filterMap, List.mem_append,
        List.mem_cons, Finset.mem_sdiff, List.not_mem_nil, or_false]
      constructor
      · rintro ⟨d, hd, hother⟩
        refine ⟨⟨d, by tauto, hother⟩, ?_⟩
        intro heq
        exact hothers d (List.mem_append.mpr hd) (heq ▸ hother)
      · rintro ⟨⟨d, hfront | rfl | hback, hother⟩, hne⟩
        · exact ⟨d, .inl hfront, hother⟩
        · exact absurd (Option.some.inj (hother.symm.trans id_old)) hne
        · exact ⟨d, .inr hback, hother⟩
    rw [rewritten.storedIds, hids]
    exact IdSets.tracks_deleted (List.nodup_singleton id) (by simpa using hthere)

/-- A collection that is deleted with all it holds is announced document by document. -/
theorem tracks_emptied (distinct : m.Distinct) (rewritten : m.Rewritten m' collection []) :
    Tracks m.storedIds
      (Notification.ofDeleted collection ((m.documents collection).filterMap storedId))
      m'.storedIds := by
  have hdeleted : Tracks m.storedIds _ _ :=
    IdSets.tracks_deleted (distinct collection) fun id hid => List.mem_toFinset.mpr hid
  rwa [Memory.storedIds, Finset.sdiff_self, ← List.toFinset_nil, ← List.filterMap_nil,
    ← rewritten.storedIds] at hdeleted

theorem RemoveAllEnd.tracks (distinct : m.Distinct) {result : Except ManagerError Unit}
    (h : RemoveAllEnd m m' collection result news) :
    Tracks m.storedIds news m'.storedIds := by
  cases h with
  | failed error same => exact same.tracks
  | emptied rewritten => exact tracks_emptied distinct rewritten

/-- What is announced as updated in a change of a collection was there before. -/
theorem mem_old_of_updated {old new : List Entity} {collections : List String} {n : Notification}
    (h : n ∈ (CollectionChange.between old new collections).updated.filterMap
      fun (id, change) => Notification.updated? collection id change) :
    n.collection = collection ∧ (∃ names, n.event = .updated names) ∧
      n.id ∈ old.map Entity.id := by
  obtain ⟨⟨id, change⟩, hupdated, hsome⟩ := List.mem_filterMap.mp h
  obtain ⟨e, -, hupdate⟩ := List.mem_filterMap.mp hupdated
  obtain ⟨-, -, before, hbefore, rfl, -⟩ := CollectionChange.update?_eq_some hupdate
  rw [Notification.eq_of_mem_updated? (Option.mem_toList.mpr hsome)]
  exact ⟨rfl, ⟨_, rfl⟩, List.mem_map_of_mem hbefore⟩

/-- The announcements of a change from one list of entities to another lead from the ids of the one
to the ids of the other. -/
theorem tracks_ofCollection {sets : IdSets} {old new : List Entity} (collections : List String)
    (hsets : sets collection = (old.map Entity.id).toFinset)
    (old_nodup : (old.map Entity.id).Nodup) (new_nodup : (new.map Entity.id).Nodup) :
    Tracks sets
      (Notification.ofCollection collection (CollectionChange.between old new collections))
      (Function.update sets collection (new.map Entity.id).toFinset) := by
  set change := CollectionChange.between old new collections with hchange
  have mem_old : ∀ id, id ∈ sets collection ↔ id ∈ old.map Entity.id := fun id => by
    rw [hsets, List.mem_toFinset]
  -- first the new ids come in
  have hcreated : Tracks sets (change.created.map fun id => ⟨collection, id, .created⟩) _ :=
    IdSets.tracks_created (new_nodup.filter _) fun id hid hthere =>
      (CollectionChange.mem_created_iff.mp hid).2 ((mem_old id).mp hthere)
  generalize hbetween : Function.update sets collection (_ ∪ _) = between at hcreated
  have mem_between : ∀ id, id ∈ between collection ↔
      id ∈ old.map Entity.id ∨ id ∈ new.map Entity.id ∧ id ∉ old.map Entity.id := fun id => by
    rw [← hbetween, Function.update_self, Finset.mem_union, mem_old, List.mem_toFinset, hchange,
      CollectionChange.mem_created_iff]
  -- what is updated has been there from the start
  have hupdated : Tracks between
      (change.updated.filterMap fun (id, change) => Notification.updated? collection id change)
      between := by
    refine IdSets.tracks_updated fun n hn => ?_
    obtain ⟨hcollection, hevent, hid⟩ := mem_old_of_updated hn
    rw [hcollection, mem_between]
    exact ⟨hevent, .inl hid⟩
  -- last the old ids go
  have hdeleted : Tracks between (Notification.ofDeleted collection change.deleted) _ :=
    IdSets.tracks_deleted (old_nodup.filter _) fun id hid =>
      (mem_between id).mpr (.inl (CollectionChange.mem_deleted_iff.mp hid).1)
  have hids : between collection \ change.deleted.toFinset = (new.map Entity.id).toFinset := by
    ext id
    rw [Finset.mem_sdiff, mem_between, List.mem_toFinset, hchange,
      CollectionChange.mem_deleted_iff, List.mem_toFinset]
    tauto
  rw [hids, ← hbetween, Function.update_idem, hbetween] at hdeleted
  exact (hcreated.append hupdated).append hdeleted

theorem ReplaceAllEnd.tracks (sound : m.Sound) {faulty : Prop} (reliable : ¬ faulty)
    {data : Value} {result : Except ManagerError Bool}
    (h : ReplaceAllEnd faulty m m' collection data result news) :
    Tracks m.storedIds news m'.storedIds := by
  cases h with
  | failed error same => exact same.tracks
  | lost error fault => exact absurd fault reliable
  | emptied checked rewritten => exact tracks_emptied sound.distinct rewritten
  | refilled entities checked some_new documents shown rewritten =>
    have hold : (m.entities collection).map Entity.id
        = (m.documents collection).filterMap storedId :=
      Memory.map_id_entities (sound.identified collection)
    rw [rewritten.storedIds, Memory.filterMap_storedId_of_shown shown]
    refine tracks_ofCollection _ ?_ ?_ ?_
    · rw [hold]
      rfl
    · rw [hold]
      exact sound.distinct collection
    · exact (nodup_of_firstRepeated (firstRepeated_of_collectionOf checked)).1

end Manager

/-- An operation that ends by no fault of the server tracks the ids. -/
theorem Operation.Ends.tracks {m m' : Memory} (sound : m.Sound) {op : Operation} {faulty : Prop}
    (reliable : ¬ faulty) {result : Except ManagerError op.Result} {news : List Notification}
    (h : op.Ends faulty m m' result news) : IdSets.Tracks m.storedIds news m'.storedIds := by
  cases op with
  | create collection data => exact Manager.PutEnd.tracks h
  | replace collection id data => exact Manager.PutEnd.tracks h
  | patch collection id data => exact Manager.PatchEnd.tracks h
  | replaceAll collection data => exact Manager.ReplaceAllEnd.tracks sound reliable h
  | remove collection id => exact Manager.RemoveEnd.tracks sound.distinct h
  | removeAll collection => exact Manager.RemoveAllEnd.tracks sound.distinct h

/-! ## Histories -/

namespace Service

/-- What has been recorded of the operations so far leads to the ids that are stored. -/
structure Recorded (s : Service Memory Recorder) : Prop where
  sound : s.store.Sound
  up : s.sink.failing = false
  tracks : IdSets.empty.Tracks s.sink.recorded s.store.storedIds

theorem Recorded.perform {s : Service Memory Recorder} (h : s.Recorded) (op : Operation) :
    (s.perform Memory.answer Recorder.sink op).2.Recorded := by
  have hsound : (Write.lead Memory.answer op.write [] s.store).2.Sound :=
    op.lead_sound Server.fronts_answer h.sound
  rw [perform_eq]
  cases hlead : Write.lead Memory.answer op.write [] s.store with
  | mk led m' =>
    obtain ⟨result, news⟩ := led
    rw [hlead] at hsound
    have fronts : Server.Fronts Memory.answer id := Server.fronts_answer
    obtain ⟨_, rfl, hends⟩ := op.lead_ends fronts h.sound hlead
    have htracks : IdSets.Tracks s.store.storedIds _ m'.storedIds :=
      hends.tracks h.sound Server.not_faulty_answer
    refine ⟨hsound, ?_, ?_⟩
    · rw [Recorder.announce_eq h.up]
      exact h.up
    · rw [Recorder.announce_eq h.up]
      exact h.tracks.append htracks

theorem Recorded.performAll {s : Service Memory Recorder} (h : s.Recorded) (ops : List Operation) :
    (s.performAll Memory.answer Recorder.sink ops).Recorded := by
  induction ops generalizing s with
  | nil => exact h
  | cons op ops ih => exact ih (h.perform op)

/-- **Whatever operations there have been since the store was empty, what has been recorded of them
is coherent, and replays to exactly the ids that are stored.** Since this holds of every list of
operations, it holds after each one of a longer list. -/
theorem recorded_replays (ops : List Operation) (selectors : SelectorCache) :
    let start : Service Memory Recorder := ⟨.empty, selectors, .empty⟩
    let ended := start.performAll Memory.answer Recorder.sink ops
    IdSets.empty.replay ended.sink.recorded = ended.store.storedIds ∧
      IdSets.empty.Coherent ended.sink.recorded := by
  intro start ended
  have hstart : start.Recorded := ⟨Memory.sound_empty, rfl, .nil _⟩
  have hended : ended.Recorded := hstart.performAll ops
  exact ⟨hended.tracks.replayed, hended.tracks.coherent⟩

/-- One machine takes the place of another: the new one is announced before the old one is gone. -/
example :
    let start : Service Memory Recorder := ⟨.empty, .ofCapacity 0, .empty⟩
    let ended := start.performAll Memory.answer Recorder.sink
      [.create "vm" (.object [("id", .string "1")]),
        .replaceAll "vm" (.array [.object [("id", .string "2")]])]
    ended.sink.recorded
        = [⟨"vm", "1", .created⟩, ⟨"vm", "2", .created⟩, ⟨"vm", "1", .deleted⟩] ∧
      IdSets.empty.Coherent ended.sink.recorded := by
  decide +kernel

end Service

end LinkedDocs
