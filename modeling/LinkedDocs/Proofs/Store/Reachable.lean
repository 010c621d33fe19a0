import LinkedDocs.Proofs.Store.Reads
import Mathlib.Data.List.Nodup

/-!
# What a store in memory can hold

A content is `Reachable` if calls can lead to it from the empty store. No document is ever given an
id that another one of its collection has:

> `Reachable.distinct`: the ids of a collection are distinct.

The content need not be `Identified`, since a patch may take the id out of a document. Where it is,
the ids tell the entities of a collection apart (`Distinct.eq_of_id_eq`).
-/

namespace LinkedDocs.Memory

/-- The content that calls have led to, in whatever order, from the empty store. -/
inductive Reachable : Memory → Prop where
  | empty : Reachable .empty
  | call {m : Memory} (call : Call) : Reachable m → Reachable (answer m call).2
  | resetCounts {m : Memory} : Reachable m → Reachable m.resetCounts
  | switch {m : Memory} (offline : Bool) : Reachable m → Reachable { m with offline := offline }

/-- Adding clients' documents is an insertion, if they are accepted. -/
theorem Reachable.seed {m : Memory} (h : m.Reachable) (collection : String)
    (documents : List Value) : (m.seed collection documents).2.Reachable := by
  rw [Memory.seed]
  split
  · exact h
  · exact h.call (.insert collection _)

/-- The ids of every collection are distinct. -/
def Distinct (m : Memory) : Prop :=
  ∀ collection, ((m.documents collection).filterMap storedId).Nodup

theorem Distinct.of_documents {m m' : Memory} (h : m.Distinct)
    (same : ∀ collection, m'.documents collection = m.documents collection) : m'.Distinct :=
  fun collection => by
    rw [same]
    exact h collection

/-! ## Writing a collection -/

theorem documents_set (m : Memory) (collection : String) (documents : List Fields)
    (other : String) :
    ((m.collections.set collection documents).get? other).getD []
      = if other = collection then documents else m.documents other := by
  rw [Dict.get?_set]
  split <;> rfl

theorem documents_withDocuments (m : Memory) (collection : String) (documents : List Fields)
    (other : String) :
    (m.withDocuments collection documents).documents other
      = if other = collection then documents else m.documents other := by
  unfold withDocuments Memory.documents
  cases documents with
  | nil =>
    show ((m.collections.erase collection).get? other).getD [] = _
    rw [Dict.erase, Dict.get?_filter]
    by_cases h : other = collection
    · cases m.collections.get? other <;> simp [h, Option.filter]
    · cases m.collections.get? other <;> simp [h, Option.filter]
  | cons d rest => exact documents_set m collection (d :: rest) other

/-- One collection is written, with distinct ids, and the others stay. -/
theorem Distinct.of_write {m m' : Memory} (h : m.Distinct) (collection : String)
    (documents : List Fields) (hnew : (documents.filterMap storedId).Nodup)
    (hwrite : ∀ other, m'.documents other
      = if other = collection then documents else m.documents other) : m'.Distinct := by
  intro other
  rw [hwrite]
  split
  · exact hnew
  · exact h other

/-! ## Insertion -/

theorem storedId_stamp (revision : Nat) (document : Fields) :
    storedId (stamp revision document) = storedId document := by
  unfold storedId stamp
  rw [Dict.get?_set_of_ne document _ (by decide)]

/-- Stamped entities are found by the entities' ids. -/
theorem filterMap_stampAll (revision : Nat) (entities : List Entity) :
    (stampAll revision (entities.map (·.fields))).filterMap storedId
      = entities.map Entity.id := by
  induction entities generalizing revision with
  | nil => rfl
  | cons e rest ih =>
    have hid : storedId (stamp (revision + 1) e.fields) = some e.id := by
      rw [storedId_stamp]
      exact storedId_eq_some.mpr e.id_eq
    rw [List.map_cons, stampAll, List.filterMap_cons_some hid, ih, List.map_cons]

/-- If no id is taken, the ids with the new ones stay distinct. -/
theorem nodup_of_firstTaken {entities : List Entity} {taken : List String} (h : taken.Nodup)
    (hfree : firstTaken taken entities = none) : (taken ++ entities.map Entity.id).Nodup := by
  induction entities generalizing taken with
  | nil => simpa using h
  | cons e rest ih =>
    rw [firstTaken] at hfree
    split at hfree
    · cases hfree
    · next hnot =>
      have hmem : e.id ∉ taken := by simpa using hnot
      have htaken : (taken ++ [e.id]).Nodup := by
        refine List.nodup_append.mpr ⟨h, by simp, ?_⟩
        intro a ha b hb hab
        rw [List.mem_singleton] at hb
        exact hmem (hb ▸ hab ▸ ha)
      simpa using ih htaken hfree

/-! ## Updates -/

/-- Setting other fields leaves a field as it is. -/
theorem get?_foldl_set {name : String} {pairs : List (String × Value)}
    (h : ∀ pair ∈ pairs, pair.1 ≠ name) (fields : Fields) :
    (pairs.foldl (fun fields pair => fields.set pair.1 pair.2) fields).get? name
      = fields.get? name := by
  induction pairs generalizing fields with
  | nil => rfl
  | cons pair rest ih =>
    have hne : name ≠ pair.1 := (h pair (List.mem_cons_self ..)).symm
    rw [List.foldl_cons, ih fun p hp => h p (List.mem_cons_of_mem _ hp),
      Dict.get?_set_of_ne fields _ hne]

/-- What is there after fields have been taken out was there before. -/
theorem get?_of_get?_foldl_erase {name : String} {value : Value} {names : List String}
    {fields : Fields} (h : (names.foldl Dict.erase fields).get? name = some value) :
    fields.get? name = some value := by
  induction names generalizing fields with
  | nil => exact h
  | cons first rest ih =>
    have hrest := ih h
    rw [Dict.erase, Dict.get?_filter] at hrest
    exact (Option.filter_eq_some_iff.mp hrest).1

/-- What an update makes of a document has its id, if it has any. -/
theorem storedId_changed {document next : Fields} {id other : String} {change : Update}
    (hid : storedId document = some id) (h : changed document id change = .ok next)
    (hnext : storedId next = some other) : other = id := by
  cases change with
  | replace e =>
    simp only [changed] at h
    split at h
    · next heq =>
      cases h
      have : storedId e.fields = some e.id := storedId_eq_some.mpr e.id_eq
      rw [this] at hnext
      exact (Option.some.inj hnext).symm.trans heq
    · cases h
  | patch set unset =>
    simp only [changed] at h
    cases h
    rw [storedId_eq_some] at hid hnext
    -- the id is not set, so what is found there has come through from the document
    rw [get?_foldl_set (by simp)] at hnext
    have hthere := Dict.get?_of_get?_swapErase (get?_of_get?_foldl_erase hnext)
    rw [hid] at hthere
    simpa using hthere.symm

/-- Writing over a document leaves the ids, but for that of the document if it loses it. -/
theorem filterMap_replaceFirst {id : String} {next : Fields}
    (h : ∀ other, storedId next = some other → other = id) (documents : List Fields) :
    ((replaceFirst id next documents).filterMap storedId).Sublist
      (documents.filterMap storedId) := by
  induction documents with
  | nil => exact List.Sublist.refl _
  | cons d rest ih =>
    rw [replaceFirst]
    split
    · next hfound =>
      have hd : storedId d = some id := by simpa [hasId] using hfound
      rw [List.filterMap_cons_some hd]
      cases hnext : storedId next with
      | none =>
        rw [List.filterMap_cons_none hnext]
        exact List.sublist_cons_self ..
      | some other =>
        obtain rfl := h other hnext
        rw [List.filterMap_cons_some hnext]
    · cases hd : storedId d with
      | none =>
        rw [List.filterMap_cons_none hd, List.filterMap_cons_none hd]
        exact ih
      | some other =>
        rw [List.filterMap_cons_some hd, List.filterMap_cons_some hd]
        exact ih.cons_cons _

/-! ## Calls -/

theorem Distinct.answer {m : Memory} (h : m.Distinct) (call : Call) :
    (Memory.answer m call).2.Distinct := by
  cases off : m.offline with
  | true => rwa [answer_of_offline off]
  | false =>
    have on : ¬ m.offline = true := by simp [off]
    cases call with
    | get | find | collections =>
      refine h.of_documents (SameContent.documents (answer_read (SameContent.refl m) ?_).2)
      trivial
    | insert collection entities =>
      simp only [Memory.answer, insert, if_neg on]
      split
      · -- a refused insertion leaves the documents, though it may leave an empty collection
        exact h.of_write collection _ (h collection) (documents_set m collection _)
      · next hfree =>
        refine h.of_write collection _ ?_ (documents_withDocuments m collection _)
        rw [List.filterMap_append, filterMap_stampAll]
        exact nodup_of_firstTaken (h collection) hfree
    | update collection id change =>
      simp only [Memory.answer, update, if_neg on]
      split
      · exact h
      · next document hfound =>
        split
        · exact h
        · next next hchanged =>
          -- the first document with the id is written over, and the id stays or goes
          have hid : storedId document = some id := by
            simpa [hasId] using List.find?_some hfound
          refine h.of_write collection _ ?_ (documents_set m collection _)
          refine (filterMap_replaceFirst (fun other hnext => ?_) _).nodup (h collection)
          rw [storedId_stamp] at hnext
          exact storedId_changed hid hchanged hnext
    | remove collection id =>
      simp only [Memory.answer, remove, if_neg on]
      split
      · exact h
      · next documents hdocuments =>
        -- what is left is part of what was there
        refine h.of_write collection _ ?_ (documents_withDocuments m collection _)
        have := h collection
        rw [Memory.documents, hdocuments] at this
        exact (List.filter_sublist.filterMap _).nodup this
    | drop collection =>
      simp only [Memory.answer, drop, if_neg on]
      exact h.of_write collection [] List.nodup_nil (documents_withDocuments m collection [])

/-- The ids of a collection are distinct, whatever calls have been made. -/
theorem Reachable.distinct {m : Memory} (h : m.Reachable) : m.Distinct := by
  induction h with
  | empty => exact fun _ => List.nodup_nil
  | call c _ ih => exact ih.answer c
  | resetCounts _ ih => exact ih
  | switch _ _ ih => exact ih

/-! ## Entities -/

/-- The entities of a collection have the ids of its documents. -/
theorem map_id_entities {documents : List Fields} (h : ∀ d ∈ documents, (storedId d).isSome) :
    (documents.filterMap entityOf?).map Entity.id = documents.filterMap storedId := by
  induction documents with
  | nil => rfl
  | cons d rest ih =>
    obtain ⟨id, hid⟩ := Option.isSome_iff_exists.mp (h d (List.mem_cons_self ..))
    obtain ⟨e, he, heid⟩ := entityOf?_of_storedId hid
    rw [List.filterMap_cons_some he, List.filterMap_cons_some hid, List.map_cons, heid,
      ih fun d hd => h d (List.mem_cons_of_mem _ hd)]

/-- Entities of a collection with the same id are the same. -/
theorem Distinct.eq_of_id_eq {m : Memory} (h : m.Distinct) (hm : m.Identified)
    {collection : String} {e e' : Entity} (he : e ∈ m.entities collection)
    (he' : e' ∈ m.entities collection) (hid : e.id = e'.id) : e = e' := by
  have hnodup : ((m.entities collection).map Entity.id).Nodup := by
    rw [entities, map_id_entities (hm collection)]
    exact h collection
  exact List.inj_on_of_nodup_map hnodup he he' hid

end LinkedDocs.Memory
