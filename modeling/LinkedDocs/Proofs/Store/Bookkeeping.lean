import LinkedDocs.Proofs.Store.Alike
import LinkedDocs.Proofs.Store.Sound
import Mathlib.Data.List.Sort

/-!
# Stores that differ in their bookkeeping

The revisions and all else that a store notes in fields of its own are no business of its callers.
Two stores are `Memory.Alike` if they hold the same collections, each with the same documents in the
same order, but for the order of the fields in a document and for the fields whose names start with
an underscore. No call tells such stores apart:

> `Memory.Alike.answer`: alike stores answer every call alike, and are alike afterwards.

What a call answers may show the order of fields, in an entity that it returns; nothing else of the
difference ever leaves the store.
-/

namespace LinkedDocs

namespace Memory

/-- Two documents show the same: but for bookkeeping, every field has the same value in both. -/
def ShowAlike (d d' : Fields) : Prop := ∀ name, isInternal name = false → d.get? name = d'.get? name

/-- Two stores hold the same collections with the same documents in the same order, as far as it
shows. Both are within reach, or both are not. -/
structure Alike (m m' : Memory) : Prop where
  offline : m.offline = m'.offline
  collections : ∀ collection, Option.Rel (List.Forall₂ ShowAlike) (m.collections.get? collection)
    (m'.collections.get? collection)

/-! ## Documents -/

section Documents

variable {d d' : Fields} {documents documents' : List Fields} {id : String}

theorem showAlike_refl (d : Fields) : ShowAlike d d := fun _ _ => rfl

theorem ShowAlike.storedId (h : ShowAlike d d') : storedId d = storedId d' := by
  unfold Memory.storedId
  rw [h idField (by decide)]

theorem ShowAlike.hasId (h : ShowAlike d d') (id : String) : hasId id d = hasId id d' := by
  rw [Memory.hasId, Memory.hasId, h.storedId]

/-- What leaves the store of the documents has the same values in every field. -/
theorem ShowAlike.get?_visible (h : ShowAlike d d') (p : Projection) (name : String) :
    (Entity.visible (p.apply d)).get? name = (Entity.visible (p.apply d')).get? name := by
  rw [Entity.get?_visible, Entity.get?_visible, Projection.get?_apply, Projection.get?_apply]
  cases hname : isInternal name with
  | true => rfl
  | false => rw [h name hname]

/-- Fields with the same values make the same entity, but for their order, or none. -/
theorem ofFields_alike {fields fields' : Fields}
    (h : ∀ name, fields.get? name = fields'.get? name) :
    EndsAlike Entity.Alike (Entity.ofFields fields) (Entity.ofFields fields') := by
  unfold Entity.ofFields
  rw [h idField]
  cases fields'.get? idField with
  | none => exact .error _
  | some value =>
    dsimp only
    cases value.scalarText? with
    | none => exact .error _
    | some id =>
      refine .ok fun name => ?_
      show (fields.set idField (.string id)).get? name
        = (fields'.set idField (.string id)).get? name
      rw [Dict.get?_set, Dict.get?_set, h name]

theorem ShowAlike.load (h : ShowAlike d d') (p : Projection) :
    EndsAlike Entity.Alike (load d p) (load d' p) :=
  (ofFields_alike (h.get?_visible p)).mapError _

/-- Searches go alike. -/
theorem select_alike (filter : Filter) (p : Projection)
    (h : List.Forall₂ ShowAlike documents documents') :
    EndsAlike (List.Forall₂ Entity.Alike) (select filter p documents)
      (select filter p documents') := by
  induction h with
  | nil => exact .ok .nil
  | cons hd _ ih =>
    refine (hd.load .all).bind fun a b hab => ?_
    rw [hab.holds filter]
    split
    · exact (hd.load p).bind fun found found' hfound => ih.bind fun others others' hothers =>
        .ok (.cons hfound hothers)
    · exact ih

theorem isSome_storedId_alike (h : List.Forall₂ ShowAlike documents documents')
    (hids : ∀ d ∈ documents, (storedId d).isSome) : ∀ d' ∈ documents', (storedId d').isSome := by
  induction h with
  | nil => exact hids
  | cons hd _ ih =>
    rw [List.forall_mem_cons] at hids ⊢
    exact ⟨hd.storedId ▸ hids.1, ih hids.2⟩

/-! ## What is written -/

/-- Stamps do not show. -/
theorem ShowAlike.stamp (h : ShowAlike d d') (revision revision' : Nat) :
    ShowAlike (stamp revision d) (stamp revision' d') := by
  intro name hname
  have hne : name ≠ revisionField := by
    rintro rfl
    exact absurd hname (by decide)
  rw [Memory.stamp, Memory.stamp, Dict.get?_set_of_ne _ _ hne, Dict.get?_set_of_ne _ _ hne]
  exact h name hname

theorem stampAll_alike (revision revision' : Nat) (documents : List Fields) :
    List.Forall₂ ShowAlike (stampAll revision documents) (stampAll revision' documents) := by
  induction documents generalizing revision revision' with
  | nil => exact .nil
  | cons d rest ih => exact .cons ((showAlike_refl d).stamp _ _) (ih _ _)

/-- An update makes documents that show the same of documents that show the same. -/
theorem ShowAlike.changed (h : ShowAlike d d') (id : String) (change : Update) :
    EndsAlike ShowAlike (changed d id change) (changed d' id change) := by
  cases change with
  | replace e =>
    simp only [Memory.changed]
    split
    · exact .ok (showAlike_refl e.fields)
    · exact .error _
  | patch set unset =>
    simp only [Memory.changed]
    refine .ok fun name hname => ?_
    have hne : name ≠ revisionField := by
      rintro rfl
      exact absurd hname (by decide)
    have hnodup : ((set.entries.filter fun pair => pair.1 != idField).map Prod.fst).Nodup :=
      set.nodup.sublist (List.filter_sublist.map _)
    rw [get?_foldl_set_of_nodup hnodup, get?_foldl_set_of_nodup hnodup, get?_foldl_erase,
      get?_foldl_erase, Dict.get?_swapErase, Dict.get?_swapErase, if_neg hne, if_neg hne,
      h name hname]

theorem replaceFirst_alike {next next' : Fields} (hnext : ShowAlike next next')
    (h : List.Forall₂ ShowAlike documents documents') :
    List.Forall₂ ShowAlike (replaceFirst id next documents)
      (replaceFirst id next' documents') := by
  induction h with
  | nil => exact .nil
  | @cons d d' _ _ hd hrest ih =>
    rw [replaceFirst, replaceFirst, hd.hasId id]
    split
    · exact .cons hnext hrest
    · exact .cons hd ih

end Documents

/-! ## Stores -/

namespace Alike

variable {m m' : Memory}

theorem refl (m : Memory) : m.Alike m :=
  ⟨rfl, fun _ => optionRel_refl (fun _ => List.forall₂_same.mpr fun d _ => showAlike_refl d) _⟩

theorem documents (h : m.Alike m') (collection : String) :
    List.Forall₂ ShowAlike (m.documents collection) (m'.documents collection) := by
  have hthere := h.collections collection
  unfold Memory.documents
  generalize m.collections.get? collection = found at hthere ⊢
  generalize m'.collections.get? collection = found' at hthere ⊢
  cases hthere with
  | none => exact .nil
  | some hdocuments => exact hdocuments

/-- Documents with ids on one side are documents with ids on the other. -/
theorem identified (h : m.Alike m') (hm : m.Identified) : m'.Identified := fun collection =>
  isSome_storedId_alike (h.documents collection) (hm collection)

theorem set (h : m.Alike m') (collection : String) {documents documents' : List Fields}
    (hdocuments : List.Forall₂ ShowAlike documents documents') (name : String) :
    Option.Rel (List.Forall₂ ShowAlike) ((m.collections.set collection documents).get? name)
      ((m'.collections.set collection documents').get? name) := by
  rw [Dict.get?_set, Dict.get?_set]
  split
  · exact .some hdocuments
  · exact h.collections name

theorem erase (h : m.Alike m') (collection name : String) :
    Option.Rel (List.Forall₂ ShowAlike) ((m.collections.erase collection).get? name)
      ((m'.collections.erase collection).get? name) := by
  rw [Dict.get?_erase, Dict.get?_erase]
  split
  · exact .none
  · exact h.collections name

theorem withDocuments (h : m.Alike m') (collection : String) {documents documents' : List Fields}
    (hdocuments : List.Forall₂ ShowAlike documents documents') :
    (m.withDocuments collection documents).Alike (m'.withDocuments collection documents') := by
  refine ⟨h.offline, fun name => ?_⟩
  cases hdocuments with
  | nil => exact h.erase collection name
  | cons hd hrest => exact h.set collection (.cons hd hrest) name

theorem contains_eq (h : m.Alike m') (name : String) :
    m.collections.contains name = m'.collections.contains name := by
  have hthere := h.collections name
  unfold Dict.contains
  generalize m.collections.get? name = found at hthere ⊢
  generalize m'.collections.get? name = found' at hthere ⊢
  cases hthere <;> rfl

theorem mem_keys_iff (h : m.Alike m') (name : String) :
    name ∈ m.collections.keys ↔ name ∈ m'.collections.keys := by
  have hsame : (m.collections.get? name).isSome = (m'.collections.get? name).isSome :=
    h.contains_eq name
  rw [← not_iff_not, ← Dict.get?_eq_none_iff, ← Dict.get?_eq_none_iff,
    ← Option.not_isSome_iff_eq_none, ← Option.not_isSome_iff_eq_none, hsame]

theorem listing (h : m.Alike m') : m.listing = m'.listing := by
  have hmem : ∀ name, name ∈ m.listing ↔ name ∈ m'.listing := by
    intro name
    rw [Memory.listing, Memory.listing, mem_sortedNames, mem_sortedNames, h.mem_keys_iff]
  exact (pairwise_sortedNames _).eq_of_mem_iff (pairwise_sortedNames _) hmem

end Alike

end Memory

/-- Two replies to a call are the same, but for the order of fields in entities. -/
def Call.RepliesAlike : (call : Call) → call.Reply → call.Reply → Prop
  | .get .. => Option.Rel Entity.Alike
  | .find .. => List.Forall₂ Entity.Alike
  | .insert .. | .update .. | .remove .. | .drop .. | .collections => Eq

namespace Memory

variable {m m' : Memory}

theorem Alike.get (h : m.Alike m') (collection id : String) (p : Projection) :
    EndsAlike (Option.Rel Entity.Alike) (m.get collection id p).1 (m'.get collection id p).1 ∧
      (m.get collection id p).2.Alike (m'.get collection id p).2 := by
  unfold Memory.get
  rw [h.offline]
  split
  · exact ⟨.error _, h⟩
  · refine ⟨?_, rfl, h.collections⟩
    have hfound := forall₂_find? (fun _ _ hd => hd.hasId id) (h.documents collection)
    dsimp only
    generalize (m.documents collection).find? (hasId id) = found at hfound ⊢
    generalize (m'.documents collection).find? (hasId id) = found' at hfound ⊢
    cases hfound with
    | none => exact .ok .none
    | some hd => exact (hd.load p).map fun _ _ => .some

theorem Alike.find (h : m.Alike m') (collection : String) (filter : Filter) (p : Projection) :
    EndsAlike (List.Forall₂ Entity.Alike) (m.find collection filter p).1
        (m'.find collection filter p).1 ∧
      (m.find collection filter p).2.Alike (m'.find collection filter p).2 := by
  unfold Memory.find
  rw [h.offline]
  split
  · exact ⟨.error _, h⟩
  · exact ⟨select_alike filter p (h.documents collection), rfl, h.collections⟩

theorem Alike.insert (h : m.Alike m') (collection : String) (entities : List Entity) :
    (m.insert collection entities).1 = (m'.insert collection entities).1 ∧
      (m.insert collection entities).2.Alike (m'.insert collection entities).2 := by
  have hdocuments := h.documents collection
  unfold Memory.insert
  rw [h.offline]
  split
  · exact ⟨rfl, h⟩
  · dsimp only
    rw [forall₂_filterMap_eq (fun _ _ hd => hd.storedId) hdocuments]
    split
    · exact ⟨rfl, rfl, h.set collection hdocuments⟩
    · have hnew := stampAll_alike m.revision m'.revision (entities.map (·.fields))
      have hwritten := h.withDocuments collection (List.rel_append hdocuments hnew)
      exact ⟨rfl, hwritten.offline, hwritten.collections⟩

theorem Alike.update (h : m.Alike m') (collection id : String) (change : Update) :
    (m.update collection id change).1 = (m'.update collection id change).1 ∧
      (m.update collection id change).2.Alike (m'.update collection id change).2 := by
  have hdocuments := h.documents collection
  have hfound := forall₂_find? (fun _ _ hd => hd.hasId id) hdocuments
  unfold Memory.update
  rw [h.offline]
  split
  · exact ⟨rfl, h⟩
  · dsimp only
    generalize (m.documents collection).find? (hasId id) = found at hfound ⊢
    generalize (m'.documents collection).find? (hasId id) = found' at hfound ⊢
    cases hfound with
    | none => exact ⟨rfl, h⟩
    | @some d d' hd =>
      have hchanged := hd.changed id change
      dsimp only
      generalize changed d id change = next at hchanged ⊢
      generalize changed d' id change = next' at hchanged ⊢
      cases hchanged with
      | error error => exact ⟨rfl, h⟩
      | ok hnext =>
        exact ⟨rfl, rfl, h.set collection
          (replaceFirst_alike (hnext.stamp (m.revision + 1) (m'.revision + 1)) hdocuments)⟩

theorem Alike.remove (h : m.Alike m') (collection id : String) :
    (m.remove collection id).1 = (m'.remove collection id).1 ∧
      (m.remove collection id).2.Alike (m'.remove collection id).2 := by
  have hthere := h.collections collection
  unfold Memory.remove
  rw [h.offline]
  split
  · exact ⟨rfl, h⟩
  · generalize m.collections.get? collection = found at hthere ⊢
    generalize m'.collections.get? collection = found' at hthere ⊢
    cases hthere with
    | none => exact ⟨rfl, h⟩
    | some hdocuments =>
      have hany := forall₂_any_eq (fun _ _ hd => hd.hasId id) hdocuments
      refine ⟨congrArg Except.ok hany, h.withDocuments collection ?_⟩
      refine List.rel_filter (fun d d' hd => ?_) hdocuments
      show (!hasId id d) = true ↔ (!hasId id d') = true
      rw [hd.hasId]

/-- **Stores that differ in their bookkeeping alone go alike.** They answer every call alike, and
differ in their bookkeeping alone afterwards. -/
theorem Alike.answer (h : m.Alike m') (call : Call) :
    EndsAlike call.RepliesAlike (answer m call).1 (answer m' call).1 ∧
      (answer m call).2.Alike (answer m' call).2 := by
  cases call with
  | get collection id p => exact h.get collection id p
  | find collection filter p => exact h.find collection filter p
  | insert collection entities => exact (h.insert collection entities).imp_left EndsAlike.eq_iff.mpr
  | update collection id change =>
    exact (h.update collection id change).imp_left EndsAlike.eq_iff.mpr
  | remove collection id => exact (h.remove collection id).imp_left EndsAlike.eq_iff.mpr
  | drop collection =>
    simp only [Memory.answer, Memory.drop]
    rw [h.offline]
    split
    · exact ⟨.error _, h⟩
    · exact ⟨EndsAlike.eq_iff.mpr (congrArg Except.ok (h.contains_eq collection)), rfl,
        h.erase collection⟩
  | collections =>
    simp only [Memory.answer, Memory.names]
    rw [h.offline]
    split
    · exact ⟨.error _, h⟩
    · exact ⟨EndsAlike.eq_iff.mpr (congrArg Except.ok h.listing), h⟩

end Memory

end LinkedDocs
