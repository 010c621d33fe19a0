import LinkedDocs.Proofs.Change.Partition
import LinkedDocs.Proofs.Manager.Differences

/-!
# What is announced of a document that stays

Take a document that a collection holds both before and after an operation. Either it has not been
touched and nothing is announced of it, or the announcement is that of a comparison: of its two
versions, or of the old one with a patch (`Announced`). Every ending of every write that succeeds
keeps to this. With what comparisons name (`due_iff`) it follows:

> `perform_announces`: what is due is named, by the one notification about the document; and patches
> apart, nothing else is.
-/

namespace LinkedDocs

open Memory (storedId)

/-- The notifications about one document. -/
def Notification.about (collection id : String) (news : List Notification) : List Notification :=
  news.filter fun n => n.collection == collection && n.id == id

namespace Notification

variable {collection id : String} {news news' : List Notification}

theorem mem_about {n : Notification} :
    n ∈ about collection id news ↔ n ∈ news ∧ n.collection = collection ∧ n.id = id := by
  simp [about]

theorem about_append : about collection id (news ++ news')
    = about collection id news ++ about collection id news' := List.filter_append ..

theorem about_eq_nil (h : ∀ n ∈ news, n.collection = collection → n.id ≠ id) :
    about collection id news = [] := by
  refine List.eq_nil_iff_forall_not_mem.mpr fun n hn => ?_
  obtain ⟨hmem, hcollection, hid⟩ := mem_about.mp hn
  exact h n hmem hcollection hid

theorem about_eq_self (h : ∀ n ∈ news, n.collection = collection ∧ n.id = id) :
    about collection id news = news :=
  List.filter_eq_self.mpr fun n hn => by simp [h n hn]

/-- What is announced of some ids is not about another one. -/
theorem about_map_of_not_mem {ids : List String} {event : Event} (h : id ∉ ids) :
    about collection id (ids.map fun id => ⟨collection, id, event⟩) = [] := by
  refine about_eq_nil fun n hn _ hid => ?_
  obtain ⟨other, hother, rfl⟩ := List.mem_map.mp hn
  exact h (hid ▸ hother)

/-- What is announced of a change names what is in it, and nothing else. -/
theorem names_of_mem_updated? {change : Change} {n : Notification}
    (h : n ∈ (updated? collection id change).toList) :
    ∃ names, n = ⟨collection, id, .updated names⟩ ∧ names ≠ [] ∧
      ∀ name ∈ names, ∃ field, change.Has field ∧ (name = field ∨ name = "@" ++ field) := by
  have hsome : change.isEmpty = false := by
    by_contra hempty
    rw [updated?, if_pos (by simpa using hempty)] at h
    cases h
  exact ⟨_, eq_of_mem_updated? h, Change.names_ne_nil hsome, fun _ => Change.has_of_mem_names⟩

theorem about_updated? (change : Change) :
    about collection id (updated? collection id change).toList
      = (updated? collection id change).toList := by
  refine about_eq_self fun n hn => ?_
  rw [eq_of_mem_updated? hn]
  exact ⟨rfl, rfl⟩

end Notification

namespace Memory

variable {m m' : Memory} {collection collection' id id' : String} {d d' old new : Fields}

/-- The document is in the collection and has the id. -/
def Holds (m : Memory) (collection id : String) (d : Fields) : Prop :=
  d ∈ m.documents collection ∧ storedId d = some id

theorem Holds.entity (h : m.Holds collection id d) :
    ∃ e ∈ m.entities collection, e.fields = Entity.visible d ∧ e.id = id := by
  obtain ⟨e, he, hfields, hid⟩ := ofStored_of_storedId h.2
  refine ⟨e, List.mem_filterMap.mpr ⟨d, h.1, ?_⟩, hfields, hid⟩
  rw [entityOf?, he]
  rfl

/-- A document of a collection that has been written stays if it is in there. -/
theorem Rewritten.stays {documents : List Fields} (h : m.Rewritten m' collection documents)
    (distinct : m'.Distinct) (before : m.Holds collection' id' d)
    (after : m'.Holds collection' id' d') (there : collection' = collection → d ∈ documents) :
    d' = d := by
  have hd : d ∈ m'.documents collection' := by
    by_cases hother : collection' = collection
    · rw [hother, h.self]
      exact there hother
    · rw [h.other hother]
      exact before.1
  exact distinct.eq_of_storedId_eq after.1 hd after.2 before.2

/-- Other documents stay where one gives way to another. -/
theorem Exchanged.cases (h : m.Exchanged m' collection id old new) (distinct : m.Distinct)
    (distinct' : m'.Distinct) (before : m.Holds collection' id' d)
    (after : m'.Holds collection' id' d') :
    (collection' = collection ∧ id' = id ∧ d = old ∧ d' = new) ∨
      ((collection' = collection → id' ≠ id) ∧ d' = d) := by
  obtain ⟨front, back, hdocuments, hrewritten⟩ := h.place
  by_cases hthis : collection' = collection ∧ id' = id
  · obtain ⟨rfl, rfl⟩ := hthis
    have hold : old ∈ m.documents collection' := by simp [hdocuments]
    have hnew : new ∈ m'.documents collection' := by simp [hrewritten.self]
    exact .inl ⟨rfl, rfl, distinct.eq_of_storedId_eq before.1 hold before.2 h.id_old,
      distinct'.eq_of_storedId_eq after.1 hnew after.2 h.id_new⟩
  · have hother : collection' = collection → id' ≠ id := not_and.mp hthis
    refine .inr ⟨hother, hrewritten.stays distinct' before after ?_⟩
    rintro rfl
    have hd := mem_of_storedId_ne hdocuments h.id_old before.1 fun hid =>
      hother rfl (Option.some.inj (before.2.symm.trans hid))
    simp only [List.mem_append, List.mem_cons] at hd ⊢
    tauto

end Memory

/-! ## Changes of collections -/

theorem Notification.collection_of_mem_ofCollection {collection : String}
    {change : CollectionChange} {n : Notification} (h : n ∈ ofCollection collection change) :
    n.collection = collection := by
  simp only [ofCollection, List.mem_append, List.mem_map, List.mem_filterMap] at h
  rcases h with (⟨id, -, rfl⟩ | ⟨pair, -, hsome⟩) | ⟨id, -, rfl⟩
  · rfl
  · rw [eq_of_mem_updated? (Option.mem_toList.mpr hsome)]
  · rfl

namespace CollectionChange

variable {old new : List Entity} {collections : List String} {collection : String}
  {before e : Entity}

/-- What is announced of an entity of the new version, if it is an update. -/
def announcement? (old : List Entity) (collections : List String) (collection : String)
    (e : Entity) : Option Notification :=
  (update? old collections e).bind fun (id, change) => Notification.updated? collection id change

theorem announcement?_of_found (found : lastWithId e.id old = some before) :
    announcement? old collections collection e
      = Notification.updated? collection e.id
          (Change.between before.fields e.fields collections) := by
  simp only [announcement?, update?, found, Option.bind_some]
  split
  · next hempty => simp [Notification.updated?, hempty]
  · rfl

theorem id_of_announcement? {n : Notification}
    (h : announcement? old collections collection e = some n) : n.id = e.id := by
  obtain ⟨⟨id, change⟩, hupdate, hupdated⟩ := Option.bind_eq_some_iff.mp h
  rw [Notification.eq_of_mem_updated? (Option.mem_toList.mpr hupdated)]
  exact (update?_eq_some hupdate).1.symm

/-- What is announced of other entities is about others. -/
theorem about_announcements_eq_nil {others : List Entity} {id : String}
    (h : ∀ other ∈ others, other.id ≠ id) :
    Notification.about collection id (others.filterMap (announcement? old collections collection))
      = [] := by
  refine Notification.about_eq_nil fun n hn _ hnid => ?_
  obtain ⟨other, hother, hsome⟩ := List.mem_filterMap.mp hn
  exact h other hother ((id_of_announcement? hsome).symm.trans hnid)

/-- Of the updates that are announced, one is about an entity of both versions. -/
theorem about_announcements (new_nodup : (new.map Entity.id).Nodup) (he : e ∈ new)
    (found : lastWithId e.id old = some before) :
    Notification.about collection e.id
        (new.filterMap (announcement? old collections collection))
      = (Notification.updated? collection e.id
          (Change.between before.fields e.fields collections)).toList := by
  obtain ⟨front, back, rfl⟩ := List.append_of_mem he
  rw [List.map_append, List.map_cons, List.nodup_middle, ← List.map_append] at new_nodup
  have hothers : ∀ other ∈ front ++ back, other.id ≠ e.id := fun other hother heq =>
    (List.nodup_cons.mp new_nodup).1 (heq ▸ List.mem_map_of_mem hother)
  have hsplit : (e :: back).filterMap (announcement? old collections collection)
      = (announcement? old collections collection e).toList
        ++ back.filterMap (announcement? old collections collection) := by
    rw [List.filterMap_cons]
    cases announcement? old collections collection e <;> rfl
  rw [List.filterMap_append, hsplit, Notification.about_append, Notification.about_append,
    about_announcements_eq_nil fun other hother => hothers other (List.mem_append_left _ hother),
    about_announcements_eq_nil fun other hother => hothers other (List.mem_append_right _ hother),
    announcement?_of_found found, Notification.about_updated?, List.nil_append, List.append_nil]

/-- Of an entity in both versions only its comparison is announced. -/
theorem about_ofCollection (old_nodup : (old.map Entity.id).Nodup)
    (new_nodup : (new.map Entity.id).Nodup) (hbefore : before ∈ old) (he : e ∈ new)
    (hid : before.id = e.id) :
    Notification.about collection e.id
        (Notification.ofCollection collection (between old new collections))
      = (Notification.updated? collection e.id
          (Change.between before.fields e.fields collections)).toList := by
  have hold : e.id ∈ old.map Entity.id := hid ▸ List.mem_map_of_mem hbefore
  have hnew : e.id ∈ new.map Entity.id := List.mem_map_of_mem he
  have hfound : lastWithId e.id old = some before := hid ▸ lastWithId_of_mem old_nodup hbefore
  rw [Notification.ofCollection, Notification.about_append, Notification.about_append,
    Notification.about_map_of_not_mem fun hmem => (mem_created_iff.mp hmem).2 hold,
    Notification.about_map_of_not_mem fun hmem => (mem_deleted_iff.mp hmem).2 hnew,
    List.nil_append, List.append_nil, between, List.filterMap_filterMap]
  exact about_announcements new_nodup he hfound

end CollectionChange

/-! ## Endings -/

/-- The operation takes a field out of a document where it held something. -/
def Operation.Unsets (op : Operation) (collection id : String) (old : Fields) (field : String) :
    Prop :=
  ∃ members before, op = .patch collection id (.object members) ∧
    (Dict.ofList members).get? field = some .null ∧
    (Entity.visible old).get? field = some before ∧ before ≠ .null

/-- Whether the operation changes some fields only. -/
def Operation.isPatch : Operation → Bool
  | .patch .. => true
  | _ => false

/-- What is announced of a document that was there before and is there after. -/
inductive Announced (m : Memory) (collection id : String) (old new : Fields) (op : Operation) :
    List Notification → Prop where
  /-- It has not been touched. -/
  | kept (spared : ∀ field, ¬ op.Unsets collection id old field) (same : new = old) :
    Announced m collection id old new op []
  /-- It was compared with its new version. -/
  | compared (spared : ∀ field, ¬ op.Unsets collection id old field) (next : Fields)
    (shown : Entity.visible new = Entity.visible next) :
    Announced m collection id old new op
      (Notification.updated? collection id
        (Change.between (Entity.visible old) next m.listing)).toList
  /-- It was compared with the patch that it got. -/
  | patched (data : Value) (asked : op = .patch collection id data) (fields : Fields)
    (checked : Manager.patchOf id data = .ok fields)
    (patches : ∀ name, isInternal name = false → new.get? name = Manager.patched fields old name) :
    Announced m collection id old new op
      (Notification.updated? collection id
        (Change.ofPatch (Entity.visible old) fields m.listing)).toList

namespace Manager

open Notification (about about_eq_nil about_updated? about_map_of_not_mem eq_of_mem_updated?)

variable {m m' : Memory} {collection collection' id id' : String} {old new : Fields}
  {op : Operation} {news : List Notification}

section

variable (distinct' : m'.Distinct) (before : m.Holds collection' id' old)
  (after : m'.Holds collection' id' new)

include distinct' before after

/-- Where one document gives way to another, what is said of it is all that is announced. -/
theorem announced_of_exchanged (distinct : m.Distinct) {was next : Fields} {change : Change}
    (exchanged : m.Exchanged m' collection id was next)
    (spared : (collection' = collection → id' ≠ id) → ∀ field,
      ¬ op.Unsets collection' id' old field)
    (this : collection' = collection → id' = id → old = was → new = next →
      Announced m collection' id' old new op
        (Notification.updated? collection' id' change).toList) :
    Announced m collection' id' old new op
      (about collection' id' (Notification.updated? collection id change).toList) := by
  rcases exchanged.cases distinct distinct' before after with
    ⟨rfl, rfl, rfl, rfl⟩ | ⟨hother, rfl⟩
  · rw [about_updated?]
    exact this rfl rfl rfl rfl
  · have hquiet : about collection' id' (Notification.updated? collection id change).toList
        = [] := by
      refine about_eq_nil fun n hn hcollection hid => ?_
      rw [eq_of_mem_updated? hn] at hcollection hid
      exact hother hcollection.symm hid.symm
    rw [hquiet]
    exact .kept (spared hother) rfl

theorem PatchEnd.announced (distinct : m.Distinct) {data : Value}
    (h : PatchEnd m m' collection id data (.ok ()) news) :
    Announced m collection' id' old new (.patch collection id data)
      (about collection' id' news) := by
  cases h with
  | idle fields checked blank same =>
    have hold : old ∈ m'.documents collection' := by
      rw [same collection']
      exact before.1
    refine .kept ?_ (distinct'.eq_of_storedId_eq after.1 hold after.2 before.2)
    -- a patch without fields takes nothing out
    intro field ⟨members, held, hop, hunset, _⟩
    cases hop
    obtain ⟨members, hdata, rfl⟩ := patchOf_ok checked
    cases hdata
    rw [(isEmpty_ofList_iff members).mp blank] at hunset
    cases hunset
  | exchanged fields checked blank was next exchanged patches =>
    refine announced_of_exchanged distinct' before after distinct exchanged ?_ ?_
    · intro hother field ⟨members, held, hop, _⟩
      cases hop
      exact hother rfl rfl
    · rintro rfl rfl rfl rfl
      exact .patched data rfl fields checked patches

variable (spared : ∀ field, ¬ op.Unsets collection' id' old field)

include spared

theorem PutEnd.announced (distinct : m.Distinct) {body : Except BodyFault Entity} {isNew : Bool}
    (h : PutEnd m m' collection body (.ok isNew) news) :
    Announced m collection' id' old new op (about collection' id' news) := by
  cases h with
  | added e checked free next shown rewritten =>
    have hquiet : about collection' id' [⟨collection, e.id, .created⟩] = [] := by
      refine about_eq_nil fun n hn hcollection hid => ?_
      obtain rfl := List.mem_singleton.mp hn
      -- the id was free
      subst hcollection hid
      exact free old before.1 before.2
    rw [hquiet]
    exact .kept spared (rewritten.stays distinct' before after fun hc =>
      List.mem_append_left _ (hc ▸ before.1))
  | exchanged e checked was next exchanged shown =>
    refine announced_of_exchanged distinct' before after distinct exchanged
      (fun _ => spared) ?_
    rintro rfl rfl rfl rfl
    exact .compared spared e.fields shown

theorem RemoveEnd.announced (distinct : m.Distinct)
    (h : RemoveEnd m m' collection id (.ok ()) news) :
    Announced m collection' id' old new op (about collection' id' news) := by
  cases h with
  | removed front back gone id_gone place rewritten =>
    -- the document is not the one that is gone, since it is there after
    have hother : collection' = collection → id' ≠ id := by
      rintro rfl rfl
      have hnew := after.1
      rw [rewritten.self] at hnew
      exact distinct.storedId_ne place id_gone new hnew after.2
    have hquiet : about collection' id' [⟨collection, id, .deleted⟩] = [] := by
      refine about_eq_nil fun n hn hcollection hid => ?_
      obtain rfl := List.mem_singleton.mp hn
      exact hother hcollection.symm hid.symm
    rw [hquiet]
    refine .kept spared (rewritten.stays distinct' before after fun hc => ?_)
    subst hc
    exact Memory.mem_of_storedId_ne place id_gone before.1 fun hid =>
      hother rfl (Option.some.inj (before.2.symm.trans hid))

/-- Of a collection that was emptied no document stays, and all others do. -/
theorem announced_of_emptied (rewritten : m.Rewritten m' collection []) {ids : List String} :
    Announced m collection' id' old new op
      (about collection' id' (Notification.ofDeleted collection ids)) := by
  have hother : collection' ≠ collection := by
    rintro rfl
    have hnew := after.1
    rw [rewritten.self] at hnew
    cases hnew
  have hquiet : about collection' id' (Notification.ofDeleted collection ids) = [] := by
    refine about_eq_nil fun n hn hcollection => ?_
    obtain ⟨id, -, rfl⟩ := List.mem_map.mp hn
    exact absurd hcollection.symm hother
  rw [hquiet]
  exact .kept spared (rewritten.stays distinct' before after fun hc => absurd hc hother)

theorem RemoveAllEnd.announced (h : RemoveAllEnd m m' collection (.ok ()) news) :
    Announced m collection' id' old new op (about collection' id' news) := by
  cases h with
  | emptied rewritten => exact announced_of_emptied distinct' before after spared rewritten

theorem ReplaceAllEnd.announced (distinct : m.Distinct) (identified : m.Identified)
    {faulty : Prop} {data : Value} {isNew : Bool}
    (h : ReplaceAllEnd faulty m m' collection data (.ok isNew) news) :
    Announced m collection' id' old new op (about collection' id' news) := by
  cases h with
  | emptied checked rewritten => exact announced_of_emptied distinct' before after spared rewritten
  | refilled entities checked some_new documents shown rewritten =>
    by_cases hc : collection' = collection
    · subst hc
      -- the two versions as entities
      obtain ⟨b, hb, hbfields, hbid⟩ := before.entity
      have hnew := List.mem_map_of_mem (f := Entity.visible) (rewritten.self ▸ after.1)
      rw [shown] at hnew
      obtain ⟨e, he, hefields⟩ := List.mem_map.mp hnew
      have heid : e.id = id' := by
        have hid := Memory.storedId_of_visible_eq hefields
        rw [Memory.storedId_fields, after.2] at hid
        exact Option.some.inj hid
      have hold_nodup : ((m.entities collection').map Entity.id).Nodup := by
        rw [Memory.entities, Memory.map_id_entities (identified collection')]
        exact distinct collection'
      have hnew_nodup := (nodup_of_firstRepeated (firstRepeated_of_collectionOf checked)).1
      rw [← heid, CollectionChange.about_ofCollection hold_nodup hnew_nodup hb he
        (hbid.trans heid.symm), hbfields, heid]
      exact .compared spared e.fields hefields.symm
    · have hquiet : about collection' id' (Notification.ofCollection collection
          (CollectionChange.between (m.entities collection) entities m.listing)) = [] := by
        refine about_eq_nil fun n hn hcollection => ?_
        exact absurd (hcollection.symm.trans (Notification.collection_of_mem_ofCollection hn)) hc
      rw [hquiet]
      exact .kept spared (rewritten.stays distinct' before after fun h => absurd h hc)

end

end Manager

/-- An operation that succeeds announces of a document that stays what a comparison gives. -/
theorem Operation.Ends.announced {m m' : Memory} (sound : m.Sound) (distinct' : m'.Distinct)
    {op : Operation} {faulty : Prop} {reply : op.Result} {news : List Notification}
    (h : op.Ends faulty m m' (.ok reply) news) {collection id : String} {old new : Fields}
    (before : m.Holds collection id old) (after : m'.Holds collection id new) :
    Announced m collection id old new op (Notification.about collection id news) := by
  have distinct := sound.distinct
  have spared (hop : op.isPatch = false) : ∀ field, ¬ op.Unsets collection id old field := by
    intro field ⟨members, held, hpatch, _⟩
    rw [hpatch] at hop
    cases hop
  cases op with
  | create target data =>
    exact Manager.PutEnd.announced distinct' before after (spared rfl) distinct h
  | replace target key data =>
    exact Manager.PutEnd.announced distinct' before after (spared rfl) distinct h
  | patch target key data =>
    exact Manager.PatchEnd.announced distinct' before after distinct h
  | replaceAll target data =>
    exact Manager.ReplaceAllEnd.announced distinct' before after (spared rfl) distinct
      sound.identified h
  | remove target key =>
    exact Manager.RemoveEnd.announced distinct' before after (spared rfl) distinct h
  | removeAll target =>
    exact Manager.RemoveAllEnd.announced distinct' before after (spared rfl) h

namespace Announced

variable {m : Memory} {collection id field : String} {old new : Fields} {op : Operation}
  {told : List Notification}

/-- The announcement of a change that is one. -/
theorem named_of_has {change : Change} (h : change.Has field) :
    ∃ names, (Notification.updated? collection id change).toList
        = [⟨collection, id, .updated names⟩] ∧ (field ∈ names ∨ "@" ++ field ∈ names) := by
  refine ⟨change.names, ?_, h.mem_names⟩
  rw [Notification.updated?, Change.isEmpty_eq_false_of_has h]
  rfl

theorem not_due_self : ¬ Due m old old field := by
  intro due
  cases due with
  | changed value now other =>
    have hsame := other value now
    simp at hsame
  | unlinked before was known refers gone =>
    rw [was] at gone
    cases gone

/-- What is due, and what a patch takes out, is named by a single notification. -/
theorem named (tidy : m.Tidy) (h : Announced m collection id old new op told)
    (due : Due m old new field ∨ op.Unsets collection id old field) :
    ∃ names, told = [⟨collection, id, .updated names⟩] ∧
      (field ∈ names ∨ "@" ++ field ∈ names) := by
  cases h with
  | kept spared same =>
    subst same
    exact absurd (due.resolve_right (spared field)) not_due_self
  | compared spared next shown =>
    exact named_of_has ((due_iff tidy shown).mp (due.resolve_right (spared field)))
  | patched data asked fields checked patches =>
    refine named_of_has ?_
    rcases due with due | ⟨members, before, hop, hunset, was, something⟩
    · exact has_ofPatch_of_due patches due
    · rw [asked] at hop
      cases hop
      obtain ⟨members, hdata, rfl⟩ := Manager.patchOf_ok checked
      cases hdata
      exact has_ofPatch_of_unset (Manager.patchOf_ne_idField checked hunset) hunset was something

/-- Patches apart, only what is due is announced. -/
theorem due_of_named (tidy : m.Tidy) (h : Announced m collection id old new op told)
    (whole : op.isPatch = false) {n : Notification} (hn : n ∈ told) :
    ∃ names, n = ⟨collection, id, .updated names⟩ ∧ names ≠ [] ∧
      ∀ name ∈ names, ∃ field, Due m old new field ∧ (name = field ∨ name = "@" ++ field) := by
  cases h with
  | kept => cases hn
  | compared spared next shown =>
    obtain ⟨names, hevent, hsome, hnames⟩ := Notification.names_of_mem_updated? hn
    refine ⟨names, hevent, hsome, fun name hname => ?_⟩
    obtain ⟨field, hfield, hname⟩ := hnames name hname
    exact ⟨field, (due_iff tidy shown).mpr hfield, hname⟩
  | patched data asked =>
    rw [asked] at whole
    cases whole

end Announced

namespace Service

/-- **When an operation succeeds, consider any document that is there before and after. Every field
of it that is due, or taken out by a patch, is named by the one notification about it. Patches
apart, a notification about it names what is due and nothing else, and there is none if nothing is
due.** -/
theorem perform_announces {m : Memory} (managed : m.Managed) (n : Nat) (fault : StoreError)
    (op : Operation) (selectors : SelectorCache) {r : Recorder} (up : r.failing = false) :
    let start : Service (Nat × Memory) Recorder := ⟨(0, m), selectors, r⟩
    let ended := start.perform (Memory.answer.failingAt n fault) Recorder.sink op
    ∀ reply, ended.1 = .ok reply → ∃ news, ended.2.sink.recorded = r.recorded ++ news ∧
      ∀ collection id old new, m.Holds collection id old →
        ended.2.store.2.Holds collection id new →
        (∀ field, Due m old new field ∨ op.Unsets collection id old field →
          ∃ names, Notification.about collection id news = [⟨collection, id, .updated names⟩] ∧
            (field ∈ names ∨ "@" ++ field ∈ names)) ∧
        (op.isPatch = false → ∀ n ∈ Notification.about collection id news,
          ∃ names, n = ⟨collection, id, .updated names⟩ ∧ names ≠ [] ∧
            ∀ name ∈ names, ∃ field, Due m old new field ∧
              (name = field ∨ name = "@" ++ field)) := by
  intro start ended reply hreply
  have hended : ended = start.perform (Memory.answer.failingAt n fault) Recorder.sink op := rfl
  rw [perform_eq] at hended
  cases hlead : Write.lead (Memory.answer.failingAt n fault) op.write [] (0, m) with
  | mk led s' =>
    obtain ⟨result, news⟩ := led
    rw [hlead, Recorder.announce_eq up] at hended
    rw [hended] at hreply ⊢
    obtain rfl : result = .ok reply := hreply
    refine ⟨news, rfl, fun collection id old new before after => ?_⟩
    have fronts := Server.fronts_failingAt n fault
    have sound := managed.sound
    obtain ⟨_, rfl, hends⟩ := op.lead_ends fronts (s := (0, m)) sound hlead
    have sound' : (Write.lead (Memory.answer.failingAt n fault) op.write [] (0, m)).2.2.Sound :=
      op.lead_sound fronts sound
    rw [hlead] at sound'
    have announced := hends.announced sound sound'.distinct before after
    exact ⟨fun field due => announced.named sound.tidy due,
      fun whole n hn => announced.due_of_named sound.tidy whole hn⟩

/-- A store with a machine that links to a disk. -/
def linkedMachine : Memory :=
  ((Memory.empty.seed "disk" [.object [("id", .string "a")]]).2.seed "vm"
    [.object [("id", .string "1"), ("size", .number (.integer 1)), ("disk", .string "a")]]).2

/-- The machine gets another size and loses its disk: both are named, and nothing else. -/
theorem perform_announces_lost_disk :
    let op : Operation :=
      .create "vm" (.object [("id", .string "1"), ("size", .number (.integer 2))])
    let start : Service (Nat × Memory) Recorder := ⟨(0, linkedMachine), .ofCapacity 0, .empty⟩
    let ended := start.perform (Memory.answer.failingAt 0 Manager.injected) Recorder.sink op
    linkedMachine.Managed ∧ ended.1 = .ok false ∧
      ended.2.sink.recorded = [⟨"vm", "1", .updated ["size", "@disk"]⟩] ∧
      ∃ old new, linkedMachine.Holds "vm" "1" old ∧ ended.2.store.2.Holds "vm" "1" new ∧
        ∀ name ∈ ["size", "@disk"], ∃ field, Due linkedMachine old new field ∧
          (name = field ∨ name = "@" ++ field) := by
  intro op start ended
  have managed : linkedMachine.Managed :=
    .seed _ _ (.seed _ _ .empty (by decide +kernel)) (by decide +kernel)
  have hended : ended.1 = .ok false := by decide +kernel
  have hrecorded : ended.2.sink.recorded = [⟨"vm", "1", .updated ["size", "@disk"]⟩] := by
    decide +kernel
  have hbefore : (linkedMachine.documents "vm").map storedId = [some "1"] := by decide +kernel
  have hafter : (ended.2.store.2.documents "vm").map storedId = [some "1"] := by decide +kernel
  obtain ⟨old, hold, hid⟩ := List.map_eq_singleton_iff.mp hbefore
  obtain ⟨new, hnew, hid'⟩ := List.map_eq_singleton_iff.mp hafter
  have before : linkedMachine.Holds "vm" "1" old := ⟨by simp [hold], hid⟩
  have after : ended.2.store.2.Holds "vm" "1" new := ⟨by simp [hnew], hid'⟩
  obtain ⟨news, hnews, hdocuments⟩ :=
    perform_announces managed 0 Manager.injected op (.ofCapacity 0) (r := .empty) rfl false hended
  have habout : ⟨"vm", "1", .updated ["size", "@disk"]⟩ ∈ Notification.about "vm" "1" news := by
    have hlist : news = [⟨"vm", "1", .updated ["size", "@disk"]⟩] := hnews.symm.trans hrecorded
    rw [hlist]
    decide
  obtain ⟨names, hevent, -, hnames⟩ := (hdocuments "vm" "1" old new before after).2 rfl _ habout
  cases hevent
  exact ⟨managed, hended, hrecorded, old, new, before, after, hnames⟩

end Service

end LinkedDocs
