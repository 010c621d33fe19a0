import LinkedDocs.Proofs.Store.Identity

/-!
# Revisions

The store counts the documents that it writes, over all collections, and stamps each with the count.
A client may have put a field of the same name into the document or the patch, and the stamp goes
over it. So a revision tells a write apart from all others, before and after it, also where a
document is deleted and made anew.

A `History` is a store that calls have led to, with all that they have written on the way, each with
the revision that the store gives for it right after the call.

> `revisions_writings`: a call gives what it writes the next revisions, in the order of writing.
> `revisionOf_answer`: a call leaves the revision of what it neither writes nor deletes.
> `History.revisions_fresh`: so revisions only ever grow, and no two stored documents share one.

The invariant behind the second half is `Stamped`. It speaks of documents and not of ids, and every
call keeps it, even one that takes the id out of a document.
-/

namespace LinkedDocs.Memory

variable {m m' : Memory} {collection id : String}

/-! ## What calls write -/

/-- The documents that a call writes, by collection and id, in the order of writing. -/
def written (m : Memory) : Call → List (String × String)
  | .insert collection entities =>
    match (m.insert collection entities).1 with
    | .ok () => entities.map fun e => (collection, e.id)
    | .error _ => []
  | .update collection id change =>
    match (m.update collection id change).1 with
    | .ok true => [(collection, id)]
    | .ok false => []
    | .error _ => []
  | .get .. | .find .. | .remove .. | .drop .. | .collections => []

/-- The call is made to delete the document, alone or with its collection. -/
def Deletes (collection id : String) : Call → Prop
  | .remove name other => name = collection ∧ other = id
  | .drop name => name = collection
  | _ => False

/-- A document that has been written, and its revision right after that. -/
structure Writing where
  collection : String
  id : String
  revision : Option Nat
  deriving DecidableEq

/-- What a call writes, with the revisions that the store gives for it after the call. -/
def writings (m : Memory) (call : Call) : List Writing :=
  (m.written call).map fun place =>
    ⟨place.1, place.2, (answer m call).2.revisionOf place.1 place.2⟩

/-- The revisions of all stored documents, collection by collection. -/
def storedRevisions (m : Memory) : List (Option Nat) :=
  m.collections.entries.flatMap fun entry => entry.2.map revisionIn

/-! ## Writes one by one -/

/-- All that an insertion can do. -/
theorem insert_cases (m : Memory) (collection : String) (entities : List Entity) :
    (∃ cause, (m.insert collection entities).1 = .error cause ∧
      (m.insert collection entities).2.revision = m.revision) ∨
    m.insert collection entities = (.ok (), { m.withDocuments collection
      (m.documents collection ++ stampAll m.revision (entities.map (·.fields))) with
        revision := m.revision + entities.length }) := by
  cases off : m.offline with
  | true => exact .inl ⟨unreachable, by simp [insert, off], by simp [insert, off]⟩
  | false =>
    cases hfree : firstTaken ((m.documents collection).filterMap storedId) entities with
    | some taken =>
      exact .inl ⟨.duplicateId collection taken, by simp [insert, off, hfree],
        by simp [insert, off, hfree]⟩
    | none => exact .inr (by simp [insert, off, hfree])

/-- All that an update can do. -/
theorem update_cases (m : Memory) (collection id : String) (change : Update) :
    (∃ cause, m.update collection id change = (.error cause, m)) ∨
    m.update collection id change = (.ok false, m) ∨
    ∃ old next, (m.documents collection).find? (hasId id) = some old ∧
      changed old id change = .ok next ∧
      m.update collection id change = (.ok true, { m with
        collections := m.collections.set collection
          (replaceFirst id (stamp (m.revision + 1) next) (m.documents collection))
        revision := m.revision + 1 }) := by
  cases off : m.offline with
  | true => exact .inl ⟨unreachable, by simp [update, off]⟩
  | false =>
    cases hfound : (m.documents collection).find? (hasId id) with
    | none => exact .inr (.inl (by simp [update, off, hfound]))
    | some old =>
      cases hchanged : changed old id change with
      | error cause => exact .inl ⟨cause, by simp [update, off, hfound, hchanged]⟩
      | ok next =>
        refine .inr (.inr ⟨old, next, rfl, hchanged, ?_⟩)
        simp [update, off, hfound, hchanged]

theorem revision_remove (m : Memory) (collection id : String) :
    (m.remove collection id).2.revision = m.revision := by
  unfold remove
  split
  · rfl
  · split <;> rfl

theorem revision_drop (m : Memory) (collection : String) :
    (m.drop collection).2.revision = m.revision := by
  unfold drop
  split <;> rfl

theorem revision_read (m : Memory) {call : Call} (read : call.isRead) :
    (answer m call).2.revision = m.revision := by
  cases call with
  | get collection id p =>
    simp only [answer, get]
    split <;> rfl
  | find collection filter p =>
    simp only [answer, find]
    split <;> rfl
  | collections =>
    simp only [answer, names]
    split <;> rfl
  | insert | update | remove | drop => exact read.elim

/-- Every document that is written counts. -/
theorem revision_answer (m : Memory) (call : Call) :
    (answer m call).2.revision = m.revision + (m.written call).length := by
  cases call with
  | get | find | collections => exact revision_read m trivial
  | remove collection id => exact revision_remove m collection id
  | drop collection => exact revision_drop m collection
  | insert collection entities =>
    rcases insert_cases m collection entities with ⟨cause, hfails, hrevision⟩ | hdone
    · simp only [answer, written, hfails, hrevision, List.length_nil, Nat.add_zero]
    · simp only [answer, written, hdone, List.length_map]
  | update collection id change =>
    rcases update_cases m collection id change with ⟨cause, hfails⟩ | hmissing | hdone
    · simp only [answer, written, hfails, List.length_nil, Nat.add_zero]
    · simp only [answer, written, hmissing, List.length_nil, Nat.add_zero]
    · obtain ⟨old, next, -, -, hdone⟩ := hdone
      simp only [answer, written, hdone, List.length_singleton]

/-! ## Stamps -/

theorem revisionIn_stamp (revision : Nat) (document : Fields) :
    revisionIn (stamp revision document) = some revision := by
  have hfield : (stamp revision document).get? revisionField = some (.ofInt revision) :=
    Dict.get?_set_self document revisionField _
  unfold revisionIn
  rw [hfield]
  rfl

theorem length_stampAll (revision : Nat) (documents : List Fields) :
    (stampAll revision documents).length = documents.length := by
  induction documents generalizing revision with
  | nil => rfl
  | cons d rest ih => rw [stampAll, List.length_cons, List.length_cons, ih]

/-- Documents that are stamped together have consecutive revisions. -/
theorem map_revisionIn_stampAll (revision : Nat) (documents : List Fields) :
    (stampAll revision documents).map revisionIn
      = (List.range' (revision + 1) documents.length).map some := by
  induction documents generalizing revision with
  | nil => rfl
  | cons d rest ih =>
    rw [stampAll, List.map_cons, revisionIn_stamp, ih, List.length_cons, List.range'_succ,
      List.map_cons]

/-- Every document has a revision that has been given out, and no two documents have the same. -/
structure Stamped (m : Memory) : Prop where
  given : ∀ collection, ∀ d ∈ m.documents collection, ∃ r, revisionIn d = some r ∧ r ≤ m.revision
  once : ∀ collection, ((m.documents collection).map revisionIn).Nodup
  apart : ∀ {collection other}, collection ≠ other → ∀ d ∈ m.documents collection,
    ∀ d' ∈ m.documents other, revisionIn d ≠ revisionIn d'

theorem stamped_empty : Stamped .empty where
  given _ _ hd := absurd hd List.not_mem_nil
  once _ := List.nodup_nil
  apart _ _ hd := absurd hd List.not_mem_nil

/-- Where the documents stay, the count may go on. -/
theorem Stamped.of_documents (h : m.Stamped)
    (same : ∀ collection, m'.documents collection = m.documents collection)
    (le : m.revision ≤ m'.revision) : m'.Stamped where
  given collection d hd := by
    rw [same] at hd
    obtain ⟨r, hr, hle⟩ := h.given collection d hd
    exact ⟨r, hr, Nat.le_trans hle le⟩
  once collection := by
    rw [same]
    exact h.once collection
  apart hne d hd d' hd' := by
    rw [same] at hd hd'
    exact h.apart hne d hd d' hd'

/-- Documents that have been given the next revisions. -/
def Fresh (m : Memory) (documents : List Fields) : Prop :=
  documents.map revisionIn = (List.range' (m.revision + 1) documents.length).map some

theorem Fresh.nodup {documents : List Fields} (h : m.Fresh documents) :
    (documents.map revisionIn).Nodup := by
  unfold Fresh at h
  rw [h]
  exact (List.nodup_range' ..).map fun _ _ => Option.some.inj

theorem Fresh.exists_revision {documents : List Fields} (h : m.Fresh documents) {d : Fields}
    (hd : d ∈ documents) :
    ∃ r, revisionIn d = some r ∧ m.revision < r ∧ r ≤ m.revision + documents.length := by
  have hmem : revisionIn d ∈ documents.map revisionIn := List.mem_map_of_mem hd
  unfold Fresh at h
  rw [h] at hmem
  obtain ⟨r, hr, heq⟩ := List.mem_map.mp hmem
  rw [List.mem_range'_1] at hr
  exact ⟨r, heq.symm, by omega, by omega⟩

/-- What has just been stamped is told apart from what is stored. -/
theorem Stamped.ne_fresh (h : m.Stamped) {fresh : List Fields} (hfresh : m.Fresh fresh)
    {d d' : Fields} (hd : d ∈ m.documents collection) (hd' : d' ∈ fresh) :
    revisionIn d ≠ revisionIn d' := by
  intro heq
  obtain ⟨r, hr, hle⟩ := h.given collection d hd
  obtain ⟨r', hr', hlt, -⟩ := hfresh.exists_revision hd'
  rw [hr, hr'] at heq
  cases heq
  omega

/-- A collection is written: some of its documents are kept, and fresh ones are put in. -/
theorem Stamped.of_rewritten (h : m.Stamped) {documents : List Fields} (kept fresh : List Fields)
    (hrewritten : m.Rewritten m' collection documents) (hperm : documents.Perm (kept ++ fresh))
    (hkept : kept.Sublist (m.documents collection)) (hfresh : m.Fresh fresh)
    (hrevision : m'.revision = m.revision + fresh.length) : m'.Stamped := by
  have hcases : ∀ {name d}, d ∈ m'.documents name →
      d ∈ m.documents name ∨ name = collection ∧ d ∈ fresh := by
    intro name d hd
    rw [hrewritten name] at hd
    split at hd
    · next hname =>
      subst hname
      exact (List.mem_append.mp (hperm.mem_iff.mp hd)).imp (fun hmem => hkept.subset hmem)
        fun hnew => ⟨rfl, hnew⟩
    · exact .inl hd
  refine ⟨fun name d hd => ?_, fun name => ?_, fun {name other} hne d hd d' hd' => ?_⟩
  · rcases hcases hd with hold | ⟨-, hnew⟩
    · obtain ⟨r, hr, hle⟩ := h.given name d hold
      exact ⟨r, hr, by omega⟩
    · obtain ⟨r, hr, -, hle⟩ := hfresh.exists_revision hnew
      exact ⟨r, hr, by omega⟩
  · rw [hrewritten name]
    split
    · rw [(hperm.map revisionIn).nodup_iff, List.map_append, List.nodup_append]
      refine ⟨(hkept.map revisionIn).nodup (h.once collection), hfresh.nodup, ?_⟩
      intro r hr r' hr'
      obtain ⟨d, hd, rfl⟩ := List.mem_map.mp hr
      obtain ⟨d', hd', rfl⟩ := List.mem_map.mp hr'
      exact h.ne_fresh hfresh (hkept.subset hd) hd'
    · exact h.once name
  · -- of two collections one at most is written
    rcases hcases hd with hold | ⟨hname, hnew⟩
    · rcases hcases hd' with hold' | ⟨-, hnew'⟩
      · exact h.apart hne d hold d' hold'
      · exact h.ne_fresh hfresh hold hnew'
    · rcases hcases hd' with hold' | ⟨hother, -⟩
      · exact (h.ne_fresh hfresh hold' hnew).symm
      · exact absurd (hname.trans hother.symm) hne

/-- Some documents of a collection are deleted. -/
theorem Stamped.of_sublist (h : m.Stamped) {documents : List Fields}
    (hrewritten : m.Rewritten m' collection documents)
    (hkept : documents.Sublist (m.documents collection)) (hrevision : m'.revision = m.revision) :
    m'.Stamped :=
  h.of_rewritten documents [] hrewritten (by rw [List.append_nil]) hkept rfl hrevision

theorem Stamped.insert (h : m.Stamped) {entities : List Entity}
    (hok : answer m (.insert collection entities) = (.ok (), m')) : m'.Stamped := by
  simp only [answer] at hok
  rcases insert_cases m collection entities with ⟨cause, hfails, -⟩ | hdone
  · rw [hok] at hfails
    cases hfails
  · rw [hdone] at hok
    cases hok
    refine h.of_rewritten _ _ (documents_withDocuments m collection _) (.refl _) (.refl _) ?_ ?_
    · unfold Fresh
      rw [map_revisionIn_stampAll, length_stampAll]
    · rw [length_stampAll, List.length_map]

theorem Stamped.update (h : m.Stamped) {change : Update} {existed : Bool}
    (hok : answer m (.update collection id change) = (.ok existed, m')) : m'.Stamped := by
  simp only [answer] at hok
  rcases update_cases m collection id change with
    ⟨cause, hfails⟩ | hmissing | ⟨old, next, hfound, -, hdone⟩
  · rw [hfails] at hok
    cases hok
  · rw [hmissing] at hok
    cases hok
    exact h
  · rw [hdone] at hok
    cases hok
    -- the stamped document takes the place of the old one
    obtain ⟨-, front, back, hdocuments, hreplaced⟩ := exists_place hfound
    refine h.of_rewritten (front ++ back) [stamp (m.revision + 1) next]
      (documents_set m collection _) ?_ ?_ ?_ rfl
    · rw [hreplaced]
      exact List.perm_middle.trans (List.perm_append_singleton _ _).symm
    · rw [hdocuments]
      exact (List.Sublist.refl front).append (List.sublist_cons_self old back)
    · unfold Fresh
      rw [List.map_singleton, revisionIn_stamp]
      rfl

/-- Every call keeps the stamps apart. -/
theorem Stamped.answer (h : m.Stamped) (call : Call) : (Memory.answer m call).2.Stamped := by
  have hle : m.revision ≤ (Memory.answer m call).2.revision := by
    rw [revision_answer]
    omega
  cases hended : Memory.answer m call with
  | mk result m' =>
    rw [hended] at hle
    cases result with
    | error cause => exact h.of_documents (documents_of_error hended) hle
    | ok reply =>
      cases call with
      | get | find | collections =>
        refine h.of_documents (SameContent.documents ?_) hle
        refine sameContent_of_read _ (.refl m) ?_ hended
        trivial
      | insert collection entities => exact h.insert hended
      | update collection id change => exact h.update hended
      | remove collection id =>
        refine h.of_sublist (remove_ok hended).2 List.filter_sublist ?_
        have hrevision := revision_remove m collection id
        simp only [Memory.answer] at hended
        rwa [hended] at hrevision
      | drop collection =>
        refine h.of_sublist (drop_rewrites hended) (List.nil_sublist _) ?_
        have hrevision := revision_drop m collection
        simp only [Memory.answer] at hended
        rwa [hended] at hrevision

theorem Stamped.of_mem_storedRevisions (h : m.Stamped) {found : Option Nat}
    (hfound : found ∈ m.storedRevisions) : ∃ r, found = some r ∧ r ≤ m.revision := by
  obtain ⟨entry, hentry, hmem⟩ := List.mem_flatMap.mp hfound
  obtain ⟨d, hd, rfl⟩ := List.mem_map.mp hmem
  rw [← documents_of_mem hentry] at hd
  exact h.given entry.1 d hd

theorem Stamped.nodup_storedRevisions (h : m.Stamped) : m.storedRevisions.Nodup := by
  refine List.nodup_flatMap.mpr ⟨fun entry hentry => ?_, ?_⟩
  · rw [← documents_of_mem hentry]
    exact h.once entry.1
  · -- the names of the collections are distinct
    have hnames : m.collections.entries.Pairwise fun a b => a.1 ≠ b.1 :=
      List.pairwise_map.mp m.collections.nodup
    refine (List.Pairwise.and_mem.mp hnames).imp ?_
    intro a b hab
    obtain ⟨ha, hb, hne⟩ := hab
    show (a.2.map revisionIn).Disjoint (b.2.map revisionIn)
    intro found hfound hother
    obtain ⟨d, hd, rfl⟩ := List.mem_map.mp hfound
    obtain ⟨d', hd', hsame⟩ := List.mem_map.mp hother
    rw [← documents_of_mem ha] at hd
    rw [← documents_of_mem hb] at hd'
    exact h.apart hne d hd d' hd' hsame.symm

/-- The revisions of stamped documents, in one list. -/
theorem Stamped.exists_storedRevisions (h : m.Stamped) :
    ∃ stored : List Nat, m.storedRevisions = stored.map some ∧ stored.Nodup ∧
      ∀ r ∈ stored, r ≤ m.revision := by
  have hmap : m.storedRevisions = (m.storedRevisions.map (·.getD 0)).map some := by
    rw [List.map_map]
    refine (List.map_id _).symm.trans (List.map_congr_left ?_)
    intro found hfound
    obtain ⟨r, rfl, -⟩ := h.of_mem_storedRevisions hfound
    rfl
  refine ⟨_, hmap, ?_, ?_⟩
  · have hnodup := h.nodup_storedRevisions
    rw [hmap] at hnodup
    exact hnodup.of_map
  · intro r hr
    obtain ⟨found, hfound, rfl⟩ := List.mem_map.mp hr
    obtain ⟨r, rfl, hle⟩ := h.of_mem_storedRevisions hfound
    exact hle

/-! ## The revisions of what is written -/

/-- A document is found by its id, and so is its revision. -/
theorem Distinct.revisionOf_of_mem (h : m.Distinct) {d : Fields}
    (hd : d ∈ m.documents collection) (hid : storedId d = some id) :
    m.revisionOf collection id = revisionIn d := by
  have hthere : ((m.documents collection).find? (hasId id)).isSome := by
    rw [List.find?_isSome]
    exact ⟨d, hd, hasId_iff.mpr hid⟩
  obtain ⟨d', hfound⟩ := Option.isSome_iff_exists.mp hthere
  have hid' : storedId d' = some id := hasId_iff.mp (List.find?_some hfound)
  obtain rfl := h.eq_of_storedId_eq (List.mem_of_find?_eq_some hfound) hd hid' hid
  rw [revisionOf, hfound, Option.bind_some]

theorem Distinct.revisionOf_stampAll (h : m.Distinct) {entities : List Entity} {revision : Nat}
    (hthere : ∀ d ∈ stampAll revision (entities.map (·.fields)), d ∈ m.documents collection) :
    entities.map (fun e => m.revisionOf collection e.id)
      = (List.range' (revision + 1) entities.length).map some := by
  induction entities generalizing revision with
  | nil => rfl
  | cons e rest ih =>
    rw [List.map_cons, stampAll, List.forall_mem_cons] at hthere
    have hid : storedId (stamp (revision + 1) e.fields) = some e.id := by
      rw [storedId_stamp, storedId_fields]
    rw [List.map_cons, h.revisionOf_of_mem hthere.1 hid, revisionIn_stamp, ih hthere.2,
      List.length_cons, List.range'_succ, List.map_cons]

/-- The revisions that a call gives to what it writes. -/
theorem map_revision_writings (m : Memory) (call : Call) :
    (m.writings call).map Writing.revision
      = (m.written call).map fun place => (answer m call).2.revisionOf place.1 place.2 := by
  rw [writings, List.map_map]
  rfl

theorem Distinct.revisions_insert (h : m.Distinct) (collection : String) (entities : List Entity) :
    (m.written (.insert collection entities)).map
        (fun place => (m.insert collection entities).2.revisionOf place.1 place.2)
      = (List.range' (m.revision + 1) (m.written (.insert collection entities)).length).map
          some := by
  rcases insert_cases m collection entities with ⟨cause, hfails, -⟩ | hdone
  · simp only [written, hfails, List.map_nil, List.length_nil, List.range'_zero]
  · have hafter : (m.insert collection entities).2.Distinct :=
      h.answer (.insert collection entities)
    have hwritten : m.written (.insert collection entities)
        = entities.map fun e => (collection, e.id) := by
      simp only [written, hdone]
    rw [hwritten, List.map_map, List.length_map]
    refine hafter.revisionOf_stampAll fun d hd => ?_
    rw [hdone, (insert_ok hdone).2.self]
    exact List.mem_append_right _ hd

theorem Distinct.revisions_update (h : m.Distinct) {change : Update}
    (keeps : ¬ m.TakesId (.update collection id change)) :
    (m.written (.update collection id change)).map
        (fun place => (m.update collection id change).2.revisionOf place.1 place.2)
      = (List.range' (m.revision + 1) (m.written (.update collection id change)).length).map
          some := by
  rcases update_cases m collection id change with
    ⟨cause, hfails⟩ | hmissing | ⟨old, next, hfound, hchanged, hdone⟩
  · simp only [written, hfails, List.map_nil, List.length_nil, List.range'_zero]
  · simp only [written, hmissing, List.map_nil, List.length_nil, List.range'_zero]
  · have hafter : (m.update collection id change).2.Distinct :=
      h.answer (.update collection id change)
    have hwritten : m.written (.update collection id change) = [(collection, id)] := by
      simp only [written, hdone]
    obtain ⟨hid, front, back, -, hreplaced⟩ := exists_place hfound
    have hnext : storedId next = some id :=
      storedId_of_changed (List.mem_of_find?_eq_some hfound) hid keeps hchanged
    have hthere : stamp (m.revision + 1) next
        ∈ (m.update collection id change).2.documents collection := by
      rw [hdone]
      show _ ∈ ((m.collections.set collection _).get? collection).getD []
      rw [documents_set, if_pos rfl, hreplaced]
      exact List.mem_append_right _ (List.mem_cons_self ..)
    rw [hwritten, List.map_singleton,
      hafter.revisionOf_of_mem hthere ((storedId_stamp _ next).trans hnext), revisionIn_stamp]
    rfl

/-- **A call gives what it writes the next revisions**, in the order of writing, unless it takes an
id away. -/
theorem Distinct.revisions_writings (h : m.Distinct) {call : Call} (keeps : ¬ m.TakesId call) :
    (m.writings call).map Writing.revision
      = (List.range' (m.revision + 1) (m.written call).length).map some := by
  rw [map_revision_writings]
  cases call with
  | get | find | remove | drop | collections => rfl
  | insert collection entities => exact h.revisions_insert collection entities
  | update collection id change => exact h.revisions_update keeps

/-! ## The revisions of everything else -/

theorem revisionOf_of_documents (same : m'.documents collection = m.documents collection)
    (id : String) : m'.revisionOf collection id = m.revisionOf collection id := by
  rw [revisionOf, revisionOf, same]

theorem revisionOf_insert {name : String} {entities : List Entity}
    (hok : answer m (.insert name entities) = (.ok (), m'))
    (hwritten : (collection, id) ∉ m.written (.insert name entities)) :
    m'.revisionOf collection id = m.revisionOf collection id := by
  obtain ⟨-, hrewritten⟩ := insert_ok hok
  by_cases hname : collection = name
  · subst hname
    have hdone : (m.insert collection entities).1 = .ok () := congrArg Prod.fst hok
    have hnone : (stampAll m.revision (entities.map (·.fields))).find? (hasId id) = none := by
      rw [List.find?_eq_none]
      intro d hd hhas
      obtain ⟨e, he, r, rfl⟩ := mem_stampAll hd
      rw [hasId_iff, storedId_stamp, storedId_fields] at hhas
      refine hwritten ?_
      simp only [written, hdone]
      exact List.mem_map.mpr ⟨e, he, by rw [Option.some.inj hhas]⟩
    rw [revisionOf, revisionOf, hrewritten.self, List.find?_append, hnone, Option.or_none]
  · exact revisionOf_of_documents (hrewritten.other hname) id

theorem revisionOf_update {name other : String} {change : Update} {existed : Bool}
    (hok : answer m (.update name other change) = (.ok existed, m'))
    (hwritten : (collection, id) ∉ m.written (.update name other change)) :
    m'.revisionOf collection id = m.revisionOf collection id := by
  simp only [answer] at hok
  rcases update_cases m name other change with
    ⟨cause, hfails⟩ | hmissing | ⟨old, next, hfound, hchanged, hdone⟩
  · rw [hfails] at hok
    cases hok
  · rw [hmissing] at hok
    cases hok
    rfl
  · have hne : ¬ (collection = name ∧ id = other) := by
      rintro ⟨rfl, rfl⟩
      refine hwritten ?_
      simp only [written, hdone, List.mem_singleton]
    have hrewritten : m.Rewritten m' name
        (replaceFirst other (stamp (m.revision + 1) next) (m.documents name)) := by
      rw [hdone] at hok
      cases hok
      exact documents_set m name _
    by_cases hname : collection = name
    · subst hname
      have hother : other ≠ id := fun heq => hne ⟨rfl, heq.symm⟩
      -- neither the old document nor the new one has the id
      obtain ⟨hid, front, back, hdocuments, hreplaced⟩ := exists_place hfound
      have hold : ¬ hasId id old = true := by
        rw [hasId_iff, hid]
        exact fun heq => hother (Option.some.inj heq)
      have hnew : ¬ hasId id (stamp (m.revision + 1) next) = true := by
        rw [hasId_iff, storedId_stamp]
        exact fun hnext => hother (storedId_changed hid hchanged hnext).symm
      rw [revisionOf, revisionOf, hrewritten.self, hreplaced, hdocuments, List.find?_append,
        List.find?_append, List.find?_cons_of_neg hold, List.find?_cons_of_neg hnew]
    · exact revisionOf_of_documents (hrewritten.other hname) id

theorem revisionOf_remove {name other : String} {existed : Bool}
    (hok : answer m (.remove name other) = (.ok existed, m'))
    (hspares : ¬ (name = collection ∧ other = id)) :
    m'.revisionOf collection id = m.revisionOf collection id := by
  obtain ⟨-, hrewritten⟩ := remove_ok hok
  by_cases hname : collection = name
  · subst hname
    have hne : other ≠ id := fun heq => hspares ⟨rfl, heq⟩
    rw [revisionOf, revisionOf, hrewritten.self, List.find?_filter]
    congr 2
    funext d
    -- a document that has the id does not have the other one
    by_cases hhas : hasId id d = true
    · have hspared : ¬ hasId other d = true := by
        rw [hasId_iff] at hhas ⊢
        rw [hhas]
        exact fun heq => hne (Option.some.inj heq).symm
      simp [hhas, hspared]
    · simp [hhas]
  · exact revisionOf_of_documents (hrewritten.other hname) id

/-- **A call leaves the revision of what it neither writes nor deletes.** If it fails, it leaves
all. -/
theorem revisionOf_answer {call : Call} (hwritten : (collection, id) ∉ m.written call)
    (hdeletes : Deletes collection id call → ∃ cause, (answer m call).1 = .error cause) :
    (answer m call).2.revisionOf collection id = m.revisionOf collection id := by
  cases hended : answer m call with
  | mk result m' =>
    rw [hended] at hdeletes
    cases result with
    | error cause => exact revisionOf_of_documents (documents_of_error hended collection) id
    | ok reply =>
      have hspares : ¬ Deletes collection id call := by
        intro hdelete
        obtain ⟨cause, hfails⟩ := hdeletes hdelete
        cases hfails
      cases call with
      | get | find | collections =>
        have same : m.SameContent m' := by
          refine sameContent_of_read _ (.refl m) ?_ hended
          trivial
        exact revisionOf_of_documents (same.documents collection) id
      | insert name entities => exact revisionOf_insert hended hwritten
      | update name other change => exact revisionOf_update hended hwritten
      | remove name other => exact revisionOf_remove hended hspares
      | drop name =>
        have hname : collection ≠ name := fun heq => hspares heq.symm
        exact revisionOf_of_documents ((drop_rewrites hended).other hname) id

/-! ## Histories -/

/-- A store that calls have led to from the empty one, none of which has taken the id out of a
document, with what they have written on the way. -/
inductive History : List Writing → Memory → Prop where
  | empty : History [] .empty
  | call {log : List Writing} {m : Memory} (call : Call) : History log m → ¬ m.TakesId call →
      History (log ++ m.writings call) (answer m call).2
  | resetCounts {log : List Writing} {m : Memory} : History log m → History log m.resetCounts
  | switch {log : List Writing} {m : Memory} (offline : Bool) : History log m →
      History log { m with offline := offline }

variable {log : List Writing}

theorem History.intact (h : History log m) : m.Intact := by
  induction h with
  | empty => exact .empty
  | call c _ keeps ih => exact ih.call c keeps
  | resetCounts _ ih => exact ih.resetCounts
  | switch offline _ ih => exact ih.switch offline

theorem History.distinct (h : History log m) : m.Distinct := h.intact.reachable.distinct

theorem History.stamped (h : History log m) : m.Stamped := by
  induction h with
  | empty => exact stamped_empty
  | call c _ _ ih => exact ih.answer c
  | resetCounts _ ih => exact ih.of_documents (fun _ => rfl) (Nat.le_refl _)
  | switch _ _ ih => exact ih.of_documents (fun _ => rfl) (Nat.le_refl _)

/-- The store counts the writes of its history. -/
theorem History.revision_eq (h : History log m) : m.revision = log.length := by
  induction h with
  | empty => rfl
  | call c _ _ ih => rw [revision_answer, ih, writings, List.length_append, List.length_map]
  | resetCounts _ ih => exact ih
  | switch _ _ ih => exact ih

/-- The writes of a history have been given the numbers from one on. -/
theorem History.map_revision (h : History log m) :
    log.map Writing.revision = (List.range' 1 log.length).map some := by
  induction h with
  | empty => rfl
  | call c hbefore keeps ih =>
    rw [List.map_append, ih, hbefore.distinct.revisions_writings keeps, hbefore.revision_eq,
      writings, List.length_append, List.length_map, ← List.map_append, Nat.add_comm _ 1,
      List.range'_append_1]
  | resetCounts _ ih => exact ih
  | switch _ _ ih => exact ih

/-- **Revisions are fresh, and they grow.** Take a store with its history. The documents in it, over
all collections, have distinct revisions, none of them greater than the number of writes so far. The
revisions that the writes so far were given, and then those that the next call gives to what it
writes, are strictly increasing, whatever was sent in the field. And a call that neither writes a
document nor deletes it, or that fails, leaves its revision. -/
theorem History.revisions_fresh (h : History log m) :
    (∃ stored : List Nat, m.storedRevisions = stored.map some ∧ stored.Nodup ∧
      ∀ r ∈ stored, r ≤ log.length) ∧
    (∃ issued : List Nat, log.map Writing.revision = issued.map some ∧
      ∀ call, ¬ m.TakesId call → ∃ fresh : List Nat,
        (m.writings call).map Writing.revision = fresh.map some ∧
          (issued ++ fresh).Pairwise (· < ·)) ∧
    ∀ call collection id, (collection, id) ∉ m.written call →
      (Deletes collection id call → ∃ cause, (answer m call).1 = .error cause) →
        (answer m call).2.revisionOf collection id = m.revisionOf collection id := by
  refine ⟨?_, ⟨List.range' 1 log.length, h.map_revision, ?_⟩, ?_⟩
  · rw [← h.revision_eq]
    exact h.stamped.exists_storedRevisions
  · intro call keeps
    refine ⟨_, h.distinct.revisions_writings keeps, ?_⟩
    rw [h.revision_eq, Nat.add_comm _ 1, List.range'_append_1]
    exact List.pairwise_lt_range' ..
  · intro call collection id hwritten hdeletes
    exact revisionOf_answer hwritten hdeletes

/-- A machine with a forged revision. -/
def forgedMachine : Entity :=
  .withId (Dict.ofList [("_rev", .ofInt 9), ("id", .string "1")]) "1"

/-- A machine and a disk, and then a patch of the machine that forges its revision again. The disk
is patched next and gets the fourth revision; without the disk the machine keeps the third. -/
theorem revisions_fresh_forged_machine :
    let m₁ := (answer .empty (.insert "vm" [forgedMachine])).2
    let m₂ := (answer m₁ (.insert "disk" [bareMachine])).2
    let m := (answer m₂ (.update "vm" "1" (.patch (Dict.ofList [("_rev", .ofInt 1)]) []))).2
    let next := Call.update "disk" "1" (.patch (Dict.ofList [("_rev", .ofInt 2)]) [])
    History [⟨"vm", "1", some 1⟩, ⟨"disk", "1", some 2⟩, ⟨"vm", "1", some 3⟩] m ∧
      m.storedRevisions = [some 3, some 2] ∧ ¬ m.TakesId next ∧
      m.writings next = [⟨"disk", "1", some 4⟩] ∧
      (∃ stored : List Nat, m.storedRevisions = stored.map some ∧ stored.Nodup ∧
        ∀ r ∈ stored, r ≤ 3) ∧
      (∃ fresh : List Nat, (m.writings next).map Writing.revision = fresh.map some ∧
        ([1, 2, 3] ++ fresh).Pairwise (· < ·)) ∧
      (answer m (.remove "disk" "1")).2.revisionOf "vm" "1" = m.revisionOf "vm" "1" := by
  intro m₁ m₂ m next
  have keeps : ¬ m.TakesId next := fun htakes => absurd htakes.1 (by decide)
  have hlog : ([] : List Writing) ++ empty.writings (.insert "vm" [forgedMachine])
      ++ m₁.writings (.insert "disk" [bareMachine])
      ++ m₂.writings (.update "vm" "1" (.patch (Dict.ofList [("_rev", .ofInt 1)]) []))
        = [⟨"vm", "1", some 1⟩, ⟨"disk", "1", some 2⟩, ⟨"vm", "1", some 3⟩] := by
    decide +kernel
  have hhistory : History [⟨"vm", "1", some 1⟩, ⟨"disk", "1", some 2⟩, ⟨"vm", "1", some 3⟩] m := by
    rw [← hlog]
    refine .call _ (.call _ (.call _ .empty not_false) not_false) ?_
    exact fun htakes => absurd htakes.1 (by decide)
  obtain ⟨hstored, ⟨issued, hissued, hfresh⟩, hkept⟩ := hhistory.revisions_fresh
  obtain ⟨fresh, hwritings, hgrow⟩ := hfresh next keeps
  refine ⟨hhistory, by decide +kernel, keeps, by decide +kernel, hstored, ?_, ?_⟩
  · have hissued' : [1, 2, 3].map some = issued.map some := hissued
    rw [List.map_injective_iff.mpr (fun _ _ => Option.some.inj) hissued']
    exact ⟨fresh, hwritings, hgrow⟩
  · exact hkept (.remove "disk" "1") "vm" "1" (by decide +kernel) fun hdelete =>
      absurd hdelete.1 (by decide)

end LinkedDocs.Memory
