import LinkedDocs.Proofs.Manager.Success
import LinkedDocs.Proofs.Manager.View
import Mathlib.Data.List.Perm.Basic

/-!
# Writing a collection at once and one by one

Putting documents in the place of a collection is one bulk write; or it is a series of single ones,
each document created in turn and then each old one that is not among them removed. The two go
different ways: the bulk write reads all old documents and the names of the collections once, and
compares collections; a single write looks for its own document and reads the names as they are by
then. Yet they come to the same:

> `perform_replaceAll_one_by_one`: both announce the same, apart from the order, and leave the same
> documents, which the bulk write puts in the order of its body.

What is seen of a collection is a partial map from ids to fields. A single write changes it at one
id, and what it announces depends on the map at that id alone (`PutEnd.put`): on the names of the
collections only if a document was there, and then its collection has been among them all the time
(`carried_creates`). The bulk write takes both from the map before it, at all ids together
(`ofCollection_perm`).
-/

namespace LinkedDocs

open Memory (answer storedId hasId)

/-! ## What single writes announce -/

/-- Only whether a name is listed matters to a comparison. -/
theorem Change.between_congr {names names' : List String} (h : ∀ name, name ∈ names ↔ name ∈ names')
    (old new : Fields) : between old new names = between old new names' := by
  have hlink : isLink names = isLink names' := by
    funext name before after
    have hcontains : names.contains name = names'.contains name := by
      rw [Bool.eq_iff_iff, List.contains_iff_mem, List.contains_iff_mem, h]
    rw [isLink, isLink, hcontains]
  simp only [between, hlink]

namespace Manager

variable {m m' : Memory} {collection : String}

/-- What is announced when a document is stored, from what is seen under its id before. -/
def putNews (collection : String) (names : List String) (before : Option Fields) (e : Entity) :
    List Notification :=
  match before with
  | none => [⟨collection, e.id, .created⟩]
  | some old =>
    (Notification.updated? collection e.id (Change.between old e.fields names)).toList

/-- Storing a document shows it under its id, and announces what `putNews` says. -/
theorem PutEnd.put (distinct : m.Distinct) {e : Entity} {isNew : Bool} {news : List Notification}
    (h : PutEnd m m' collection (.ok e) (.ok isNew) news) :
    news = putNews collection m.listing (m.lookup collection e.id) e ∧
      (∀ id, m'.lookup collection id
        = if id = e.id then some (Entity.visible e.fields) else m.lookup collection id) ∧
      ∀ other, other ≠ collection → m'.documents other = m.documents other := by
  cases h with
  | added e checked free new shown rewritten =>
    cases checked
    have hfree := Memory.lookup_eq_none_iff.mpr free
    have hnew : storedId new = some e.id := by
      rw [Memory.storedId_of_visible_eq shown, Memory.storedId_fields]
    refine ⟨by rw [hfree, putNews], fun id => ?_, fun other => rewritten.other⟩
    rw [rewritten.lookup_append hnew hfree, shown]
  | exchanged e checked old new exchanged shown =>
    cases checked
    obtain ⟨front, back, hdocuments, hrewritten⟩ := exchanged.place
    have hold : old ∈ m.documents collection := by simp [hdocuments]
    refine ⟨?_, fun id => ?_, fun other => hrewritten.other⟩
    · rw [distinct.lookup_of_mem hold exchanged.id_old, putNews]
    · rw [exchanged.lookup distinct, shown]

/-- The names that are listed matter only where a document gives way to another. -/
theorem putNews_congr {names names' : List String} {before : Option Fields}
    (h : before.isSome → ∀ name, name ∈ names ↔ name ∈ names') (e : Entity) :
    putNews collection names before e = putNews collection names' before e := by
  cases before with
  | none => rfl
  | some old => rw [putNews, putNews, Change.between_congr (h rfl)]

/-- Deleting a document leaves nothing under its id. -/
theorem RemoveEnd.removed_lookup (distinct : m.Distinct) {id : String} {news : List Notification}
    (h : RemoveEnd m m' collection id (.ok ()) news) :
    news = [⟨collection, id, .deleted⟩] ∧
      (∀ other, m'.lookup collection other
        = if other = id then none else m.lookup collection other) ∧
      ∀ other, other ≠ collection → m'.documents other = m.documents other := by
  cases h with
  | removed front back old id_old place rewritten =>
    exact ⟨rfl, rewritten.lookup_removed distinct place id_old, fun other => rewritten.other⟩

end Manager

/-! ## Series of writes -/

/-- The operations, one after another, succeed, announce this and lead from one store to the other.
-/
inductive Carried : Memory → List Operation → List Notification → Memory → Prop where
  | nil (m : Memory) : Carried m [] [] m
  | cons {m m₁ m' : Memory} {op : Operation} {ops : List Operation} {reply : op.Result}
    {news more : List Notification} :
    Write.lead answer op.write [] m = ((.ok reply, news), m₁) → Carried m₁ ops more m' →
      Carried m (op :: ops) (news ++ more) m'

theorem Carried.append {m m₁ m' : Memory} {ops more : List Operation}
    {news later : List Notification} (h : Carried m ops news m₁) (h' : Carried m₁ more later m') :
    Carried m (ops ++ more) (news ++ later) m' := by
  induction h with
  | nil => exact h'
  | cons first _ ih =>
    rw [List.append_assoc]
    exact .cons first (ih h')

namespace Service

variable {σ τ : Type}

/-- Every one of the operations succeeds, when it comes to it. -/
def AllSucceed (server : Server σ) (sink : Sink τ) : List Operation → Service σ τ → Prop
  | [], _ => True
  | op :: ops, s => (∃ reply, (s.perform server sink op).1 = .ok reply) ∧
    AllSucceed server sink ops (s.perform server sink op).2

theorem perform_of_lead {m m' : Memory} {op : Operation} {reply : op.Result}
    {news : List Notification} (h : Write.lead answer op.write [] m = ((.ok reply, news), m'))
    (selectors : SelectorCache) {r : Recorder} (up : r.failing = false) :
    (⟨m, selectors, r⟩ : Service Memory Recorder).perform answer Recorder.sink op
      = (.ok reply, ⟨m', selectors, { r with recorded := r.recorded ++ news }⟩) := by
  rw [perform_eq, h, Recorder.announce_eq up]

/-- A service carries the operations out, and its recorder writes down what they announce. -/
theorem performAll_of_carried {m m' : Memory} {ops : List Operation} {news : List Notification}
    (h : Carried m ops news m') (selectors : SelectorCache) {r : Recorder}
    (up : r.failing = false) :
    (⟨m, selectors, r⟩ : Service Memory Recorder).performAll answer Recorder.sink ops
        = ⟨m', selectors, { r with recorded := r.recorded ++ news }⟩ ∧
      AllSucceed answer Recorder.sink ops (⟨m, selectors, r⟩ : Service Memory Recorder) := by
  induction h generalizing r with
  | nil m =>
    rw [List.append_nil]
    exact ⟨rfl, trivial⟩
  | cons first _ ih =>
    have hperform := perform_of_lead first selectors up
    rw [performAll, AllSucceed, hperform, ← List.append_assoc]
    obtain ⟨hall, hsucceed⟩ := ih (r := { r with recorded := r.recorded ++ _ }) up
    exact ⟨hall, ⟨_, rfl⟩, hsucceed⟩

end Service

namespace Manager

variable {m : Memory} {collection : String}

theorem documentsOf_cons {data : Value} {rest : List Value} {entities : List Entity}
    (h : documentsOf (data :: rest) = .ok entities) :
    ∃ e others, documentOf data = .ok e ∧ documentsOf rest = .ok others ∧
      entities = e :: others := by
  rw [documentsOf] at h
  cases hdocument : documentOf data with
  | error fault => simp [hdocument, bind, Except.bind] at h
  | ok e =>
    cases hrest : documentsOf rest with
    | error fault => simp [hdocument, hrest, bind, Except.bind] at h
    | ok others =>
      refine ⟨e, others, rfl, rfl, ?_⟩
      simpa [hdocument, hrest, bind, Except.bind, pure, Except.pure] using h.symm

/-- The entities of a body that passes the check come from its items, and have distinct ids. -/
theorem collectionOf_ok {items : List Value} {entities : List Entity}
    (h : collectionOf (.array items) = .ok entities) :
    documentsOf items = .ok entities ∧ (entities.map Entity.id).Nodup := by
  have hdistinct := (nodup_of_firstRepeated (firstRepeated_of_collectionOf h)).1
  refine ⟨?_, hdistinct⟩
  unfold collectionOf at h
  cases hdocuments : documentsOf items with
  | error fault => simp [itemsOf, hdocuments, bind, Except.bind] at h
  | ok found =>
    cases hrepeated : firstRepeated [] (found.map Entity.id) with
    | some id => simp [itemsOf, hdocuments, hrepeated, bind, Except.bind] at h
    | none => simpa [itemsOf, hdocuments, hrepeated, bind, Except.bind] using h

theorem find?_id_eq_none {entities : List Entity} {id : String}
    (h : id ∉ entities.map Entity.id) : entities.find? (·.id == id) = none :=
  List.find?_eq_none.mpr fun e he => by
    simpa using fun heq : e.id = id => h (heq ▸ List.mem_map_of_mem he)

theorem exists_find?_id {entities : List Entity} {id : String}
    (h : id ∈ entities.map Entity.id) : ∃ e, entities.find? (·.id == id) = some e := by
  obtain ⟨e, he, hid⟩ := List.mem_map.mp h
  rw [← Option.isSome_iff_exists, List.find?_isSome]
  exact ⟨e, he, by simpa using hid⟩

/-- **Creating documents one by one.** All succeed. What is announced of each depends on what was
seen under its id before the first, and each is seen in the end. -/
theorem carried_creates (sound : m.Sound) (on : m.offline = false) {items : List Value}
    {entities : List Entity} (valid : documentsOf items = .ok entities)
    (distinct : (entities.map Entity.id).Nodup) :
    ∃ m', Carried m (items.map (.create collection))
        (entities.flatMap fun e =>
          putNews collection m.listing (m.lookup collection e.id) e) m' ∧
      m'.Sound ∧ m'.offline = false ∧
      (∀ id, m'.lookup collection id
        = ((entities.find? (·.id == id)).map fun e => Entity.visible e.fields).or
          (m.lookup collection id)) ∧
      ∀ other, other ≠ collection → m'.documents other = m.documents other := by
  induction items generalizing m entities with
  | nil =>
    cases valid
    exact ⟨m, .nil m, sound, on, fun _ => rfl, fun _ _ => rfl⟩
  | cons data rest ih =>
    obtain ⟨e, others, hdocument, hrest, rfl⟩ := documentsOf_cons valid
    obtain ⟨hnew, hothers⟩ := List.nodup_cons.mp distinct
    have hsucceeds : Write.Succeeds m (Operation.create collection data).write :=
      Write.succeeds_check_bind hdocument (succeeds_put sound on e)
    obtain ⟨isNew, news, m₁, hlead, hends, sound₁, off₁⟩ :=
      Operation.ends_of_succeeds sound hsucceeds
    have hput : PutEnd m m₁ collection (documentOf data) (.ok isNew) news := hends
    rw [hdocument] at hput
    obtain ⟨rfl, hlookup, hsame⟩ := hput.put sound.distinct
    obtain ⟨m', hcarried, sound', on', hlookup', hsame'⟩ := ih sound₁ (off₁.trans on) hrest hothers
    refine ⟨m', ?_, sound', on', fun id => ?_, fun other hother => ?_⟩
    · -- what is announced of the others is the same as if they were written at once
      have hnews : (others.flatMap fun e' =>
            putNews collection m₁.listing (m₁.lookup collection e'.id) e')
          = others.flatMap fun e' =>
            putNews collection m.listing (m.lookup collection e'.id) e' := by
        refine List.flatMap_congr fun e' he' => ?_
        have hne : e'.id ≠ e.id := fun heq => hnew (heq ▸ List.mem_map_of_mem he')
        rw [hlookup, if_neg hne]
        refine putNews_congr (fun hsome name => ?_) e'
        obtain ⟨old, hold⟩ := Option.isSome_iff_exists.mp hsome
        obtain ⟨d, hd, -, -⟩ := Memory.exists_of_lookup hold
        have hold₁ : m₁.lookup collection e'.id = some old := by rw [hlookup, if_neg hne, hold]
        obtain ⟨d₁, hd₁, -, -⟩ := Memory.exists_of_lookup hold₁
        rw [Memory.listing, Memory.listing, mem_sortedNames, mem_sortedNames,
          sound₁.tidy.mem_keys_iff, sound.tidy.mem_keys_iff]
        by_cases hname : name = collection
        · subst hname
          exact iff_of_true (List.ne_nil_of_mem hd₁) (List.ne_nil_of_mem hd)
        · rw [hsame name hname]
      rw [List.map_cons, List.flatMap_cons, ← hnews]
      exact .cons hlead hcarried
    · rw [hlookup', hlookup, List.find?_cons]
      by_cases hid : id = e.id
      · subst hid
        simp [find?_id_eq_none hnew]
      · have hother : (e.id == id) = false := by simpa using Ne.symm hid
        rw [if_neg hid, hother]
    · rw [hsame' other hother, hsame other hother]

/-- **Deleting documents one by one.** All succeed if they are there, each is announced, and none of
them is seen in the end. -/
theorem carried_removes (sound : m.Sound) (on : m.offline = false) {ids : List String}
    (distinct : ids.Nodup) (there : ∀ id ∈ ids, m.lookup collection id ≠ none) :
    ∃ m', Carried m (ids.map (.remove collection)) (Notification.ofDeleted collection ids) m' ∧
      m'.Sound ∧
      (∀ id, m'.lookup collection id = if id ∈ ids then none else m.lookup collection id) ∧
      ∀ other, other ≠ collection → m'.documents other = m.documents other := by
  induction ids generalizing m with
  | nil => exact ⟨m, .nil m, sound, fun _ => by simp, fun _ _ => rfl⟩
  | cons id rest ih =>
    obtain ⟨hnew, hrest⟩ := List.nodup_cons.mp distinct
    obtain ⟨fields, hfields⟩ := Option.ne_none_iff_exists'.mp (there id (List.mem_cons_self ..))
    obtain ⟨d, hd, hid, -⟩ := Memory.exists_of_lookup hfields
    have hsucceeds : Write.Succeeds m (Operation.remove collection id).write :=
      succeeds_remove on ⟨d, hd, hid⟩
    obtain ⟨⟨⟩, news, m₁, hlead, hends, sound₁, off₁⟩ :=
      Operation.ends_of_succeeds sound hsucceeds
    have hremove : RemoveEnd m m₁ collection id (.ok ()) news := hends
    obtain ⟨rfl, hlookup, hsame⟩ := hremove.removed_lookup sound.distinct
    have hthere : ∀ other ∈ rest, m₁.lookup collection other ≠ none := by
      intro other hother
      rw [hlookup, if_neg fun heq : other = id => hnew (heq ▸ hother)]
      exact there other (List.mem_cons_of_mem _ hother)
    obtain ⟨m', hcarried, sound', hlookup', hsame'⟩ := ih sound₁ (off₁.trans on) hrest hthere
    refine ⟨m', .cons hlead hcarried, sound', fun other => ?_, fun other hother => ?_⟩
    · rw [hlookup', hlookup]
      by_cases hother : other = id
      · simp [hother]
      · simp [hother]
    · rw [hsame' other hother, hsame other hother]

/-! ## The bulk write -/

/-- The ids of a collection that are not among those of the entities. -/
def gone (m : Memory) (collection : String) (entities : List Entity) : List String :=
  ((m.documents collection).filterMap storedId).filter
    fun id => !(entities.map Entity.id).contains id

theorem mem_gone_iff {entities : List Entity} {id : String} :
    id ∈ gone m collection entities ↔
      m.lookup collection id ≠ none ∧ id ∉ entities.map Entity.id := by
  rw [gone, List.mem_filter, List.mem_filterMap, ne_eq, Memory.lookup_eq_none_iff]
  simp

/-- A bulk write that succeeds announces the comparison of the two versions of its collection, also
where it deletes it, and leaves the new documents in order. -/
theorem ReplaceAllEnd.refilled_view (sound : m.Sound) {m' : Memory} {faulty : Prop} {data : Value}
    {entities : List Entity} (valid : collectionOf data = .ok entities) {isNew : Bool}
    {news : List Notification}
    (h : ReplaceAllEnd faulty m m' collection data (.ok isNew) news) :
    news = Notification.ofCollection collection
        (CollectionChange.between (m.entities collection) entities m.listing) ∧
      m'.view collection = entities.map (fun e => Entity.visible e.fields) ∧
      ∀ other, other ≠ collection → m'.documents other = m.documents other := by
  cases h with
  | emptied checked rewritten =>
    obtain rfl : [] = entities := Except.ok.inj (checked.symm.trans valid)
    refine ⟨?_, by rw [Memory.view, rewritten.self]; rfl, fun other => rewritten.other⟩
    rw [← Memory.map_id_entities (sound.identified collection)]
    simp [Notification.ofCollection, Notification.ofDeleted, CollectionChange.between,
      Memory.entities]
  | refilled found checked some_new documents shown rewritten =>
    obtain rfl : found = entities := Except.ok.inj (checked.symm.trans valid)
    exact ⟨rfl, by rw [Memory.view, rewritten.self, shown], fun other => rewritten.other⟩

/-- What is announced of one document is a creation or a comparison. -/
theorem putNews_eq (sound : m.Sound) (collection : String) (e : Entity) :
    putNews collection m.listing (m.lookup collection e.id) e
      = (if ((m.entities collection).map Entity.id).contains e.id then []
          else [⟨collection, e.id, .created⟩])
        ++ (CollectionChange.announcement? (m.entities collection) m.listing collection
          e).toList := by
  rw [sound.lookup_eq_lastWithId]
  cases hlast : CollectionChange.lastWithId e.id (m.entities collection) with
  | some before =>
    obtain ⟨hmem, hid⟩ := CollectionChange.lastWithId_eq_some hlast
    have hthere : e.id ∈ (m.entities collection).map Entity.id := hid ▸ List.mem_map_of_mem hmem
    rw [if_pos (List.contains_iff_mem.mpr hthere), CollectionChange.announcement?_of_found hlast]
    rfl
  | none =>
    have hnot : e.id ∉ (m.entities collection).map Entity.id :=
      CollectionChange.lastWithId_eq_none_iff.mp hlast
    rw [if_neg (by simpa using hnot), CollectionChange.announcement?, CollectionChange.update?,
      hlast]
    rfl

/-- The comparison of two versions of a collection is, apart from the order, what is announced of
each document of the new one, and the old ones that are gone. -/
theorem ofCollection_perm (sound : m.Sound) (collection : String) (entities : List Entity) :
    (Notification.ofCollection collection
      (CollectionChange.between (m.entities collection) entities m.listing)).Perm
      ((entities.flatMap fun e => putNews collection m.listing (m.lookup collection e.id) e)
        ++ Notification.ofDeleted collection (gone m collection entities)) := by
  have hids : (m.entities collection).map Entity.id
      = (m.documents collection).filterMap storedId :=
    Memory.map_id_entities (sound.identified collection)
  have hcreated : ((entities.map Entity.id).filter fun id =>
        !((m.entities collection).map Entity.id).contains id).map
          (fun id => (⟨collection, id, .created⟩ : Notification))
      = entities.flatMap fun e =>
          if ((m.entities collection).map Entity.id).contains e.id then []
          else [⟨collection, e.id, .created⟩] := by
    induction entities with
    | nil => rfl
    | cons e rest ih =>
      rw [List.map_cons, List.filter_cons, List.flatMap_cons, ← ih]
      cases ((m.entities collection).map Entity.id).contains e.id <;> rfl
  rw [Notification.ofCollection, CollectionChange.between, List.filterMap_filterMap, hcreated]
  refine List.Perm.append ?_ (by rw [gone, ← hids, Notification.ofDeleted])
  rw [List.flatMap_congr fun e _ => putNews_eq sound collection e]
  refine (List.Perm.of_eq ?_).trans (List.flatMap_append_perm ..)
  rw [← List.filterMap_eq_flatMap_toList]
  rfl

end Manager

namespace Service

open Manager (gone)

/-- **A bulk write comes to the same as single ones.** On a sound store that is within reach,
putting documents in the place of a collection succeeds, and so do creating each in turn and then
removing each old one that is not among them. The announcements are the same apart from their
order, and so are the documents, which the bulk write leaves in the order of its body. All other
collections stay as they are. -/
theorem perform_replaceAll_one_by_one {m : Memory} (sound : m.Sound) (on : m.offline = false)
    (collection : String) {items : List Value} {entities : List Entity}
    (valid : Manager.collectionOf (.array items) = .ok entities) (selectors : SelectorCache)
    {r : Recorder} (up : r.failing = false) :
    let start : Service Memory Recorder := ⟨m, selectors, r⟩
    let bulk := start.perform answer Recorder.sink (.replaceAll collection (.array items))
    let ops := items.map (.create collection)
      ++ (gone m collection entities).map (.remove collection)
    let single := start.performAll answer Recorder.sink ops
    (∃ isNew, bulk.1 = .ok isNew) ∧ start.AllSucceed answer Recorder.sink ops ∧
      (∃ news news', bulk.2.sink.recorded = r.recorded ++ news ∧
        single.sink.recorded = r.recorded ++ news' ∧ news.Perm news') ∧
      bulk.2.store.view collection = entities.map (fun e => Entity.visible e.fields) ∧
      (single.store.view collection).Perm (bulk.2.store.view collection) ∧
      ∀ other, other ≠ collection → bulk.2.store.documents other = m.documents other ∧
        single.store.documents other = m.documents other := by
  intro start bulk ops single
  -- the bulk write
  have hsucceeds : Write.Succeeds m (Operation.replaceAll collection (.array items)).write :=
    Manager.succeeds_replaceAll sound on valid
  obtain ⟨isNew, news, mb, hlead, hends, soundb, -⟩ :=
    Operation.ends_of_succeeds sound hsucceeds
  obtain ⟨rfl, hview, hsameb⟩ := Manager.ReplaceAllEnd.refilled_view sound valid hends
  have hbulk : bulk = _ := perform_of_lead hlead selectors up
  -- the single writes
  obtain ⟨hdocuments, hnodup⟩ := Manager.collectionOf_ok valid
  obtain ⟨m₁, hcreates, sound₁, on₁, hlookup₁, hsame₁⟩ :=
    @Manager.carried_creates m collection sound on items entities hdocuments hnodup
  have hthere : ∀ id ∈ gone m collection entities, m₁.lookup collection id ≠ none := by
    intro id hid
    obtain ⟨hlookup, hnot⟩ := Manager.mem_gone_iff.mp hid
    rw [hlookup₁, Manager.find?_id_eq_none hnot]
    exact hlookup
  have hgone : (gone m collection entities).Nodup := (sound.distinct collection).filter _
  obtain ⟨m', hremoves, sound', hlookup', hsame'⟩ := Manager.carried_removes sound₁ on₁ hgone hthere
  obtain ⟨hsingle, hsucceed⟩ :=
    performAll_of_carried (hcreates.append hremoves) selectors up
  have hsingle : single = _ := hsingle
  rw [hbulk, hsingle]
  refine ⟨⟨isNew, rfl⟩, hsucceed, ⟨_, _, rfl, rfl, Manager.ofCollection_perm sound ..⟩, hview, ?_,
    fun other hother => ⟨hsameb other hother, ?_⟩⟩
  · refine soundb.perm_view sound' fun id => ?_
    rw [Memory.lookup_of_shown hview, hlookup', hlookup₁]
    by_cases hid : id ∈ entities.map Entity.id
    · have hnot : id ∉ gone m collection entities := fun hgone =>
        (Manager.mem_gone_iff.mp hgone).2 hid
      obtain ⟨e, hfound⟩ := Manager.exists_find?_id hid
      rw [if_neg hnot, hfound]
      rfl
    · rw [Manager.find?_id_eq_none hid]
      split
      · rfl
      · next hnot =>
        by_contra hlookup
        exact hnot (Manager.mem_gone_iff.mpr ⟨hlookup, hid⟩)
  · rw [hsame' other hother, hsame₁ other hother]

/-- A store with one machine of some size. -/
def sizedMachine : Memory :=
  (Memory.empty.seed "vm" [.object [("id", .string "1"), ("size", .number (.integer 1))]]).2

/-- The machine gets another size, and a new one comes after it. The bulk write announces the new
one first, the single writes each in its turn. -/
theorem perform_replaceAll_one_by_one_machines :
    let items : List Value :=
      [.object [("id", .number (.integer 1)), ("size", .number (.integer 2))],
        .object [("id", .string "2")]]
    let start : Service Memory Recorder := ⟨sizedMachine, .ofCapacity 0, .empty⟩
    let bulk := start.perform answer Recorder.sink (.replaceAll "vm" (.array items))
    let single := start.performAll answer Recorder.sink (items.map (.create "vm"))
    sizedMachine.Managed ∧
      bulk.2.sink.recorded = [⟨"vm", "2", .created⟩, ⟨"vm", "1", .updated ["size"]⟩] ∧
      single.sink.recorded.Perm bulk.2.sink.recorded ∧
      (single.store.view "vm").Perm (bulk.2.store.view "vm") := by
  intro items
  dsimp only
  have managed : sizedMachine.Managed := .seed _ _ .empty (by decide +kernel)
  let entities : List Entity :=
    [.withId (Dict.ofList [("id", .string "1"), ("size", .number (.integer 2))]) "1",
      .withId (Dict.ofList [("id", .string "2")]) "2"]
  have valid : Manager.collectionOf (.array items) = .ok entities := by decide +kernel
  have hgone : gone sizedMachine "vm" entities = [] := by decide +kernel
  have hsame := perform_replaceAll_one_by_one managed.sound (by decide +kernel) "vm" valid
    (.ofCapacity 0) (r := .empty) rfl
  rw [hgone, List.map_nil, List.append_nil] at hsame
  obtain ⟨-, -, ⟨news, news', hnews, hnews', hperm⟩, -, hview, -⟩ := hsame
  rw [show Recorder.empty.recorded = [] from rfl, List.nil_append] at hnews hnews'
  rw [← hnews, ← hnews'] at hperm
  exact ⟨managed, by decide +kernel, hperm.symm, hview⟩

end Service

end LinkedDocs
