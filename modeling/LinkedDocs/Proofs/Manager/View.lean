import LinkedDocs.Proofs.Manager.Announcements
import LinkedDocs.Proofs.Store.Identity

/-!
# What is seen of a collection

Clients see the documents of a collection without bookkeeping (`Memory.view`), and each under its id
(`Memory.lookup`). In a sound store this partial map says all but the order:

> `Sound.perm_view`: collections in which the same is seen have the same documents, apart from their
> order.

A write of one document changes the map at its id alone (`Rewritten.lookup_append`,
`Exchanged.lookup`, `Rewritten.lookup_removed`).
-/

namespace LinkedDocs

open Memory (storedId hasId)

namespace Memory

variable {m m' : Memory} {collection id : String}

/-! ## Documents and their ids -/

/-- The documents of a collection without bookkeeping. -/
def view (m : Memory) (collection : String) : List Fields :=
  (m.documents collection).map Entity.visible

/-- What is seen of the document with an id. -/
def lookup (m : Memory) (collection id : String) : Option Fields :=
  (m.view collection).find? (hasId id)

theorem hasId_visible (document : Fields) :
    hasId id (Entity.visible document) = hasId id document := by
  rw [hasId, hasId, storedId_visible]

theorem lookup_eq (m : Memory) (collection id : String) :
    m.lookup collection id = ((m.documents collection).find? (hasId id)).map Entity.visible := by
  rw [lookup, view, List.find?_map]
  congr 2
  exact funext fun document => hasId_visible document

theorem lookup_eq_none_iff :
    m.lookup collection id = none ↔ ∀ d ∈ m.documents collection, storedId d ≠ some id := by
  rw [lookup_eq, Option.map_eq_none_iff, List.find?_eq_none]
  simp only [hasId_iff, ne_eq]

theorem exists_of_lookup {fields : Fields} (h : m.lookup collection id = some fields) :
    ∃ d ∈ m.documents collection, storedId d = some id ∧ Entity.visible d = fields := by
  rw [lookup_eq, Option.map_eq_some_iff] at h
  obtain ⟨d, hfound, hvisible⟩ := h
  exact ⟨d, List.mem_of_find?_eq_some hfound, hasId_iff.mp (List.find?_some hfound), hvisible⟩

/-- A document is seen under its id. -/
theorem Distinct.lookup_of_mem (h : m.Distinct) {d : Fields} (hd : d ∈ m.documents collection)
    (hid : storedId d = some id) : m.lookup collection id = some (Entity.visible d) := by
  cases hlookup : m.lookup collection id with
  | none => exact absurd hid (lookup_eq_none_iff.mp hlookup d hd)
  | some fields =>
    obtain ⟨d', hd', hid', rfl⟩ := exists_of_lookup hlookup
    rw [h.eq_of_storedId_eq hd' hd hid' hid]

/-- The ids tell what is seen in the documents apart. -/
theorem Sound.nodup_view (h : m.Sound) (collection : String) : (m.view collection).Nodup := by
  have hids : ((m.view collection).map storedId).Nodup := by
    rw [view, List.map_map, show storedId ∘ Entity.visible = storedId from funext storedId_visible,
      map_storedId_of_isSome (h.identified collection)]
    exact (h.distinct collection).map fun _ _ => Option.some.inj
  exact hids.of_map

theorem Sound.mem_view_iff (h : m.Sound) {fields : Fields} :
    fields ∈ m.view collection ↔ ∃ id, m.lookup collection id = some fields := by
  constructor
  · intro hmem
    obtain ⟨d, hd, rfl⟩ := List.mem_map.mp hmem
    obtain ⟨id, hid⟩ := Option.isSome_iff_exists.mp (h.identified collection d hd)
    exact ⟨id, h.distinct.lookup_of_mem hd hid⟩
  · rintro ⟨id, hlookup⟩
    exact List.mem_of_find?_eq_some hlookup

/-- Collections in which the same is seen have the same documents, apart from their order. -/
theorem Sound.perm_view (h : m.Sound) (h' : m'.Sound)
    (same : ∀ id, m'.lookup collection id = m.lookup collection id) :
    (m'.view collection).Perm (m.view collection) := by
  refine (List.perm_ext_iff_of_nodup (h'.nodup_view _) (h.nodup_view _)).mpr fun fields => ?_
  rw [h'.mem_view_iff, h.mem_view_iff]
  simp only [same]

/-! ## What writes change in it -/

/-- A document that is appended is seen, where nothing with its id was. -/
theorem Rewritten.lookup_append {new : Fields} {own : String}
    (h : m.Rewritten m' collection (m.documents collection ++ [new]))
    (hnew : storedId new = some own) (free : m.lookup collection own = none) (id : String) :
    m'.lookup collection id
      = if id = own then some (Entity.visible new) else m.lookup collection id := by
  rw [lookup_eq] at free ⊢
  rw [h.self, List.find?_append, lookup_eq]
  by_cases hid : id = own
  · subst hid
    rw [Option.map_eq_none_iff.mp free, if_pos rfl,
      List.find?_cons_of_pos (hasId_iff.mpr hnew)]
    rfl
  · have hother : hasId id new = false := by
      rw [← Bool.not_eq_true, hasId_iff, hnew]
      exact fun heq => hid (Option.some.inj heq).symm
    rw [if_neg hid, List.find?_cons_of_neg (by simp [hother]), List.find?_nil, Option.or_none]

/-- Where a document gives way to another, that is seen in its place. -/
theorem Exchanged.lookup {old new : Fields} {own : String} (distinct : m.Distinct)
    (h : m.Exchanged m' collection own old new) (id : String) :
    m'.lookup collection id
      = if id = own then some (Entity.visible new) else m.lookup collection id := by
  obtain ⟨front, back, hdocuments, hrewritten⟩ := h.place
  have hothers := distinct.storedId_ne hdocuments h.id_old
  rw [lookup_eq, lookup_eq, hrewritten.self, hdocuments, List.find?_append, List.find?_append]
  by_cases hid : id = own
  · subst hid
    have hfront : front.find? (hasId id) = none := List.find?_eq_none.mpr fun d hd => by
      rw [hasId_iff]
      exact hothers d (List.mem_append_left _ hd)
    rw [if_pos rfl, hfront, List.find?_cons_of_pos (hasId_iff.mpr h.id_new)]
    rfl
  · have hne : ∀ {d : Fields}, storedId d = some own → ¬ hasId id d = true := fun hd => by
      rw [hasId_iff, hd]
      exact fun heq => hid (Option.some.inj heq).symm
    rw [if_neg hid, List.find?_cons_of_neg (hne h.id_old), List.find?_cons_of_neg (hne h.id_new)]

/-- A document that is taken out is not seen any more. -/
theorem Rewritten.lookup_removed {front back : List Fields} {old : Fields} {own : String}
    (distinct : m.Distinct) (place : m.documents collection = front ++ old :: back)
    (hold : storedId old = some own) (h : m.Rewritten m' collection (front ++ back)) (id : String) :
    m'.lookup collection id = if id = own then none else m.lookup collection id := by
  rw [lookup_eq, lookup_eq, h.self, place]
  by_cases hid : id = own
  · subst hid
    rw [if_pos rfl, List.find?_eq_none.mpr fun d hd => ?_]
    · rfl
    · rw [hasId_iff]
      exact distinct.storedId_ne place hold d hd
  · have hne : ¬ hasId id old = true := by
      rw [hasId_iff, hold]
      exact fun heq => hid (Option.some.inj heq).symm
    rw [if_neg hid, List.find?_append, List.find?_append, List.find?_cons_of_neg hne]

/-- In documents that show what entities hold, those are seen. -/
theorem lookup_of_shown {entities : List Entity}
    (h : m.view collection = entities.map fun e => Entity.visible e.fields) (id : String) :
    m.lookup collection id
      = (entities.find? (·.id == id)).map fun e => Entity.visible e.fields := by
  rw [lookup, h, List.find?_map]
  congr 2
  funext e
  rw [Function.comp_apply, hasId_visible, hasId, storedId_fields]
  rfl

/-- What is seen of a collection is what its entities hold. -/
theorem Sound.lookup_eq_lastWithId (h : m.Sound) (collection id : String) :
    m.lookup collection id
      = (CollectionChange.lastWithId id (m.entities collection)).map (·.fields) := by
  have hnodup : ((m.entities collection).map Entity.id).Nodup := by
    rw [entities, map_id_entities (h.identified collection)]
    exact h.distinct collection
  cases hlookup : m.lookup collection id with
  | none =>
    cases hlast : CollectionChange.lastWithId id (m.entities collection) with
    | none => rfl
    | some e =>
      obtain ⟨he, rfl⟩ := CollectionChange.lastWithId_eq_some hlast
      obtain ⟨d, hd, hentity⟩ := List.mem_filterMap.mp he
      obtain ⟨own, hown⟩ := Option.isSome_iff_exists.mp (h.identified collection d hd)
      obtain ⟨e', he', hid'⟩ := entityOf?_of_storedId hown
      obtain rfl : e' = e := Option.some.inj (he'.symm.trans hentity)
      rw [← hid'] at hown
      exact absurd hown (lookup_eq_none_iff.mp hlookup d hd)
  | some fields =>
    obtain ⟨d, hd, hid, rfl⟩ := exists_of_lookup hlookup
    obtain ⟨e, he, hfields, rfl⟩ := Holds.entity ⟨hd, hid⟩
    rw [CollectionChange.lastWithId_of_mem hnodup he, Option.map_some, hfields]

end Memory

end LinkedDocs
