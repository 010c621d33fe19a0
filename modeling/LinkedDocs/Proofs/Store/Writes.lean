import LinkedDocs.Proofs.Store.Failures

/-!
# What calls that succeed do to the documents

`Rewritten m m' collection documents` says that a write has put these documents in the place of
those of one collection and has left all others; `Exchanged` that in one collection one document has
given way to another. For each write there is one lemma that says which of the two it does
(`insert_ok`, `update_ok`, `remove_ok`, `drop_rewrites`), and for each read one that says what it
has seen (`get_ok`, `find_ok`, `names_ok`). Nothing later looks into the store itself.

What leaves the store of a document is `Entity.visible`; a stamp does not show in it, and a patch
acts on it field by field (`get?_patched`).
-/

namespace LinkedDocs

namespace Memory

variable {m m' m₁ : Memory} {collection id : String}

/-- One collection holds these documents now, and everything else is as it was. -/
def Rewritten (m m' : Memory) (collection : String) (documents : List Fields) : Prop :=
  ∀ other, m'.documents other = if other = collection then documents else m.documents other

/-- In one collection a document with this id has given way to another one, at its place, and
everything else is as it was. -/
structure Exchanged (m m' : Memory) (collection id : String) (old new : Fields) : Prop where
  id_old : storedId old = some id
  id_new : storedId new = some id
  place : ∃ front back, m.documents collection = front ++ old :: back ∧
    m.Rewritten m' collection (front ++ new :: back)

/-- The names of the collections, sorted. -/
def listing (m : Memory) : List String := sortedNames m.collections.keys

theorem Rewritten.self {documents : List Fields} (h : m.Rewritten m' collection documents) :
    m'.documents collection = documents := (h collection).trans (if_pos rfl)

theorem Rewritten.other {documents : List Fields} (h : m.Rewritten m' collection documents)
    {other : String} (hne : other ≠ collection) : m'.documents other = m.documents other :=
  (h other).trans (if_neg hne)

/-- Only the documents before the write count. -/
theorem Rewritten.of_same {documents : List Fields} (h : m₁.Rewritten m' collection documents)
    (same : m.SameContent m₁) : m.Rewritten m' collection documents := by
  intro other
  rw [h other, same.documents]

/-- Of two writes of one collection the second counts. -/
theorem Rewritten.trans {documents documents' : List Fields}
    (h : m.Rewritten m₁ collection documents) (h' : m₁.Rewritten m' collection documents') :
    m.Rewritten m' collection documents' := by
  intro other
  rw [h' other]
  split
  · rfl
  · next hother => exact h.other hother

theorem Exchanged.of_same {old new : Fields} (h : m₁.Exchanged m' collection id old new)
    (same : m.SameContent m₁) : m.Exchanged m' collection id old new := by
  obtain ⟨front, back, hdocuments, hrewritten⟩ := h.place
  rw [same.documents] at hdocuments
  exact ⟨h.id_old, h.id_new, front, back, hdocuments, hrewritten.of_same same⟩

theorem SameContent.listing (same : m.SameContent m') : m'.listing = m.listing := by
  rw [Memory.listing, Memory.listing, same.1]

theorem SameContent.trans {m'' : Memory} (h : m.SameContent m') (h' : m'.SameContent m'') :
    m.SameContent m'' := ⟨h'.1.trans h.1, h'.2.trans h.2⟩

/-! ## Documents -/

theorem hasId_iff {document : Fields} : hasId id document = true ↔ storedId document = some id := by
  simp [hasId]

/-- The id is among the fields that leave the store. -/
theorem storedId_visible (document : Fields) :
    storedId (Entity.visible document) = storedId document := by
  have hid : (Entity.visible document).get? idField = document.get? idField := by
    rw [Entity.get?_visible]
    exact if_neg (by decide)
  unfold storedId
  rw [hid]

theorem storedId_of_visible_eq {document document' : Fields}
    (h : Entity.visible document = Entity.visible document') :
    storedId document = storedId document' := by
  rw [← storedId_visible, h, storedId_visible]

theorem storedId_fields (e : Entity) : storedId e.fields = some e.id := storedId_eq_some.mpr e.id_eq

/-- Fields that do not leave the store can be written without a trace. -/
theorem visible_set (document : Fields) {name : String} (value : Value)
    (internal : isInternal name = true) :
    Entity.visible (document.set name value) = Entity.visible document := by
  have hput : ∀ entries : List (String × Value),
      (Dict.put name value entries).filter (fun pair => !isInternal pair.1)
        = entries.filter fun pair => !isInternal pair.1 := by
    intro entries
    induction entries with
    | nil => simp [Dict.put, internal]
    | cons pair rest ih =>
      obtain ⟨key, old⟩ := pair
      rw [Dict.put]
      split
      · next hkey => simp [hkey, internal]
      · rw [List.filter_cons, List.filter_cons, ih]
  exact Dict.ext (hput document.entries)

theorem visible_stamp (revision : Nat) (document : Fields) :
    Entity.visible (stamp revision document) = Entity.visible document :=
  visible_set document _ (by decide)

theorem map_visible_stampAll (revision : Nat) (documents : List Fields) :
    (stampAll revision documents).map Entity.visible = documents.map Entity.visible := by
  induction documents generalizing revision with
  | nil => rfl
  | cons d rest ih => rw [stampAll, List.map_cons, List.map_cons, visible_stamp, ih]

/-- Documents that show the same have the same ids. -/
theorem filterMap_storedId_of_map_visible {documents documents' : List Fields}
    (h : documents.map Entity.visible = documents'.map Entity.visible) :
    documents.filterMap storedId = documents'.filterMap storedId := by
  have hvisible : ∀ ds : List Fields,
      ds.filterMap storedId = (ds.map Entity.visible).filterMap storedId := by
    intro ds
    rw [List.filterMap_map]
    exact List.filterMap_congr fun d _ => (storedId_visible d).symm
  rw [hvisible, h, ← hvisible]

/-- Documents that show what entities hold have their ids. -/
theorem filterMap_storedId_of_shown {documents : List Fields} {entities : List Entity}
    (h : documents.map Entity.visible = entities.map fun e => Entity.visible e.fields) :
    documents.filterMap storedId = entities.map Entity.id := by
  have hfields : documents.map Entity.visible
      = (entities.map (·.fields)).map Entity.visible := by rw [h, List.map_map]; rfl
  rw [filterMap_storedId_of_map_visible hfields, List.filterMap_map, ← List.filterMap_eq_map]
  exact List.filterMap_congr fun e _ => storedId_fields e

/-! ## Patches -/

/-- What the fields that a patch sets do to a field. -/
theorem get?_foldl_set_of_nodup {name : String} {pairs : List (String × Value)}
    (h : (pairs.map Prod.fst).Nodup) (fields : Fields) :
    (pairs.foldl (fun fields pair => fields.set pair.1 pair.2) fields).get? name
      = (pairs.lookup name).or (fields.get? name) := by
  induction pairs generalizing fields with
  | nil => rfl
  | cons pair rest ih =>
    obtain ⟨key, value⟩ := pair
    obtain ⟨hkey, hrest⟩ : key ∉ rest.map Prod.fst ∧ (rest.map Prod.fst).Nodup := by simpa using h
    rw [List.foldl_cons, ih hrest, Dict.get?_set, Dict.lookup_cons]
    by_cases hname : key = name
    · subst hname
      have hlater : rest.lookup key = none := (Dict.lookup_eq_none_iff key rest).mpr hkey
      simp [hlater]
    · rw [if_neg hname, if_neg (Ne.symm hname)]

theorem get?_foldl_erase (names : List String) (fields : Fields) (name : String) :
    (names.foldl Dict.erase fields).get? name
      = if name ∈ names then none else fields.get? name := by
  induction names generalizing fields with
  | nil => simp
  | cons first rest ih =>
    rw [List.foldl_cons, ih, Dict.get?_erase]
    by_cases hname : name = first
    · simp [hname]
    · simp [hname]

/-- What a patch makes of a field other than the id and the revision. -/
theorem get?_patched {document next set : Fields} {unset : List String} {name : String}
    (h : changed document id (.patch set unset) = .ok next) (hid : name ≠ idField)
    (hrevision : name ≠ revisionField) :
    next.get? name
      = (set.get? name).or (if name ∈ unset then none else document.get? name) := by
  simp only [changed] at h
  cases h
  have hnodup : ((set.entries.filter fun pair => pair.1 != idField).map Prod.fst).Nodup :=
    set.nodup.sublist (List.filter_sublist.map _)
  have hfound : List.lookup name (set.entries.filter fun pair => pair.1 != idField)
      = set.get? name := by
    rw [Dict.lookup_filter (fun key _ => key != idField) set.nodup]
    show (set.get? name).filter _ = _
    cases set.get? name <;> simp [hid]
  rw [get?_foldl_set_of_nodup hnodup, hfound, get?_foldl_erase, Dict.get?_swapErase,
    if_neg hrevision]

/-- A patch that does not take the id out leaves it. -/
theorem storedId_patched {document next set : Fields} {unset : List String}
    (h : changed document id (.patch set unset) = .ok next) (hunset : idField ∉ unset) :
    storedId next = storedId document := by
  simp only [changed] at h
  cases h
  have hid : ((set.entries.filter fun pair => pair.1 != idField).foldl
      (fun fields pair => fields.set pair.1 pair.2)
      (unset.foldl Dict.erase (document.swapErase revisionField))).get? idField
        = document.get? idField := by
    rw [get?_foldl_set (by simp), get?_foldl_erase, if_neg hunset, Dict.get?_swapErase,
      if_neg (by decide)]
  unfold storedId
  rw [hid]

/-! ## Writes that succeed -/

theorem insert_ok {entities : List Entity}
    (h : answer m (.insert collection entities) = (.ok (), m')) :
    firstTaken ((m.documents collection).filterMap storedId) entities = none ∧
      m.Rewritten m' collection
        (m.documents collection ++ stampAll m.revision (entities.map (·.fields))) := by
  simp only [answer, insert] at h
  split at h
  · cases h
  · split at h
    · cases h
    · next hfree =>
      cases h
      exact ⟨hfree, documents_withDocuments m collection _⟩

/-- Where a document with the id is, the first one is written over. -/
theorem exists_place {documents : List Fields} {document : Fields}
    (h : documents.find? (hasId id) = some document) :
    storedId document = some id ∧ ∃ front back, documents = front ++ document :: back ∧
      ∀ next, replaceFirst id next documents = front ++ next :: back := by
  obtain ⟨hid, front, back, hdocuments, hfront⟩ := List.find?_eq_some_iff_append.mp h
  refine ⟨hasId_iff.mp hid, front, back, hdocuments, fun next => ?_⟩
  subst hdocuments
  clear h
  induction front with
  | nil => simp [replaceFirst, hid]
  | cons d front ih =>
    have hd : hasId id d = false := by simpa using hfront d (List.mem_cons_self ..)
    rw [List.cons_append, replaceFirst, if_neg (by simp [hd]),
      ih fun d hd => hfront d (List.mem_cons_of_mem _ hd), List.cons_append]

/-- An update that succeeds finds no document, or exchanges the one it finds. -/
theorem update_ok {change : Update} {existed : Bool}
    (h : answer m (.update collection id change) = (.ok existed, m')) :
    ((m.documents collection).find? (hasId id) = none ∧ m' = m) ∨
      ∃ document next, (m.documents collection).find? (hasId id) = some document ∧
        changed document id change = .ok next ∧ m.Rewritten m' collection
          (replaceFirst id (stamp (m.revision + 1) next) (m.documents collection)) := by
  simp only [answer, update] at h
  split at h
  · cases h
  · split at h
    · next hnone =>
      cases h
      exact .inl ⟨hnone, rfl⟩
    · next document hfound =>
      split at h
      · cases h
      · next next hchanged =>
        cases h
        exact .inr ⟨document, next, hfound, hchanged, documents_set m collection _⟩

theorem remove_ok {existed : Bool}
    (h : answer m (.remove collection id) = (.ok existed, m')) :
    existed = (m.documents collection).any (hasId id) ∧
      m.Rewritten m' collection
        ((m.documents collection).filter fun document => !hasId id document) := by
  simp only [answer, remove] at h
  split at h
  · cases h
  · split at h
    · next hmissing =>
      cases h
      have hempty := documents_of_get?_eq_none hmissing
      refine ⟨by rw [hempty]; rfl, fun other => ?_⟩
      split
      · next hother => rw [hother, hempty]; rfl
      · rfl
    · next documents hthere =>
      cases h
      rw [documents_of_get? hthere]
      exact ⟨rfl, documents_withDocuments m collection _⟩

theorem drop_rewrites {existed : Bool} (h : answer m (.drop collection) = (.ok existed, m')) :
    m.Rewritten m' collection [] := by
  simp only [answer, drop] at h
  split at h
  · cases h
  · cases h
    exact documents_withDocuments m collection []

/-! ## Reads that succeed -/

theorem online_of_ok {call : Call} {reply : call.Reply} (h : answer m call = (.ok reply, m')) :
    m.offline = false := by
  cases off : m.offline with
  | false => rfl
  | true =>
    rw [answer_of_offline off] at h
    cases h

theorem get_ok (hm : m.Identified) {found : Option Entity}
    (h : answer m (.get collection id .all) = (.ok found, m')) :
    found = ((m.documents collection).find? (hasId id)).bind entityOf? := by
  have hreply := reply_get hm (online_of_ok h) collection id .all
  rw [reply, h, entities, ← find?_hasId (hm collection)] at hreply
  have hfound := Except.ok.inj hreply
  rw [hfound]
  cases ((m.documents collection).find? (hasId id)).bind entityOf? <;> simp

/-- A document that is found shows the fields of the first one with the id. -/
theorem get_found (hm : m.Identified) {e : Entity}
    (h : answer m (.get collection id .all) = (.ok (some e), m')) :
    ∃ document, (m.documents collection).find? (hasId id) = some document ∧
      e.fields = Entity.visible document := by
  obtain ⟨document, hfound, he⟩ := Option.bind_eq_some_iff.mp (get_ok hm h).symm
  obtain ⟨e', he', hfields, -⟩ := ofStored_of_storedId (hasId_iff.mp (List.find?_some hfound))
  rw [entityOf?, he'] at he
  cases he
  exact ⟨document, hfound, hfields⟩

/-- A document that is not found is not there. -/
theorem get_missing (hm : m.Identified)
    (h : answer m (.get collection id .all) = (.ok none, m')) :
    ∀ d ∈ m.documents collection, storedId d ≠ some id := by
  intro d hd hid
  obtain ⟨document, hfound⟩ : ∃ document, (m.documents collection).find? (hasId id)
      = some document := by
    rw [← Option.isSome_iff_exists, List.find?_isSome]
    exact ⟨d, hd, hasId_iff.mpr hid⟩
  obtain ⟨e, he, -⟩ := entityOf?_of_storedId (hasId_iff.mp (List.find?_some hfound))
  have hget := get_ok hm h
  rw [hfound, Option.bind_some, he] at hget
  cases hget

theorem find_ok (hm : m.Identified) {p : Projection} {found : List Entity}
    (h : answer m (.find collection [] p) = (.ok found, m')) :
    found = (m.entities collection).map (·.restrict p) := by
  have hreply := reply_find hm (online_of_ok h) collection [] p
  rw [reply, h] at hreply
  rw [Except.ok.inj hreply]
  congr 1
  exact List.filter_eq_self.mpr fun e _ => Filter.holds_nil e

theorem names_ok {names : List String} (h : answer m .collections = (.ok names, m')) :
    names = m.listing := by
  have on := online_of_ok h
  simp only [answer, Memory.names, on, Bool.false_eq_true, if_false] at h
  cases h
  rfl

end Memory

end LinkedDocs
