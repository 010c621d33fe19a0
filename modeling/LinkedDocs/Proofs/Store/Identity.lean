import LinkedDocs.Proofs.Store.Sound

/-!
# The ids of stored documents

Every document that is inserted has an id, no two documents of a collection share one, and no call
gives a document another id. One call can take an id away: a patch takes out every field that it
names, and does not except the id as it does among the fields that it sets (`TakesId`). After that
the document is not found by any id, and every search of its collection fails.

> `Reachable.textIds`: whatever the calls, an id that is there is text.
> `Intact.ids_kept`: as long as no call takes an id away, every document has one, distinct from the
> others of its collection, updates leave the ids where they are, and a search without conditions
> gives every document of the collection.
-/

namespace LinkedDocs.Memory

/-- Whatever stands in the id of a document is text. -/
def TextIds (m : Memory) : Prop :=
  ∀ collection, ∀ document ∈ m.documents collection, ∀ value,
    document.get? idField = some value → ∃ id, value = .string id

/-- What an update makes of a document has an id that is text, or none. -/
theorem textId_of_changed {document next : Fields} {id : String} {change : Update} {value : Value}
    (h : changed document id change = .ok next)
    (hdocument : ∀ value, document.get? idField = some value → ∃ id, value = .string id)
    (hvalue : next.get? idField = some value) : ∃ id, value = .string id := by
  cases change with
  | replace e =>
    simp only [changed] at h
    split at h
    · cases h
      rw [e.id_eq] at hvalue
      exact ⟨e.id, (Option.some.inj hvalue).symm⟩
    · cases h
  | patch set unset =>
    simp only [changed] at h
    cases h
    -- a patch does not set the id, so what is found there has come through from the document
    rw [get?_foldl_set (by simp)] at hvalue
    exact hdocument value (Dict.get?_of_get?_swapErase (get?_of_get?_foldl_erase hvalue))

theorem TextIds.answer {m : Memory} (h : m.TextIds) (call : Call) :
    (Memory.answer m call).2.TextIds := by
  have hstamp : ∀ (document : Fields) revision,
      (stamp revision document).get? idField = document.get? idField := fun document revision =>
    Dict.get?_set_of_ne document _ (by decide)
  refine forall_documents_answer h (fun e revision value hvalue => ?_) ?_
  · rw [hstamp, e.id_eq] at hvalue
    exact ⟨e.id, (Option.some.inj hvalue).symm⟩
  · intro collection id change old next revision _ _ hold _ hchanged value hvalue
    rw [hstamp] at hvalue
    exact textId_of_changed hchanged hold hvalue

/-- An id that is there is text, whatever calls have been made. -/
theorem Reachable.textIds {m : Memory} (h : m.Reachable) : m.TextIds := by
  induction h with
  | empty => exact fun _ _ hd => absurd hd List.not_mem_nil
  | call c _ ih => exact ih.answer c
  | resetCounts _ ih => exact ih
  | switch _ _ ih => exact ih

/-! ## Updates -/

/-- Exchanging a document leaves all ids, each at its place. -/
theorem Exchanged.map_storedId {m m' : Memory} {collection id : String} {old new : Fields}
    (h : m.Exchanged m' collection id old new) (other : String) :
    (m'.documents other).map storedId = (m.documents other).map storedId := by
  obtain ⟨front, back, hdocuments, hrewritten⟩ := h.place
  rw [hrewritten other]
  split
  · next hother =>
    subst hother
    rw [hdocuments, List.map_append, List.map_append, List.map_cons, List.map_cons, h.id_old,
      h.id_new]
  · rfl

/-- An update leaves all ids, each at its place, unless it takes one away. -/
theorem map_storedId_update {m : Memory} {collection id : String} {change : Update}
    (keeps : ¬ m.TakesId (.update collection id change)) (other : String) :
    ((answer m (.update collection id change)).2.documents other).map storedId
      = (m.documents other).map storedId := by
  cases hended : answer m (.update collection id change) with
  | mk result m' =>
    cases result with
    | error cause =>
      rw [documents_of_error hended]
    | ok existed =>
      rcases exchanged_of_update keeps hended with ⟨-, rfl⟩ | ⟨old, next, r, -, -, hexchanged⟩
      · rfl
      · exact hexchanged.map_storedId other

/-! ## Stores that no id has been taken from -/

/-- The content that calls have led to from the empty store, none of which has taken the id out of a
document. -/
inductive Intact : Memory → Prop where
  | empty : Intact .empty
  | call {m : Memory} (call : Call) : Intact m → ¬ m.TakesId call → Intact (answer m call).2
  | resetCounts {m : Memory} : Intact m → Intact m.resetCounts
  | switch {m : Memory} (offline : Bool) : Intact m → Intact { m with offline := offline }

theorem Intact.reachable {m : Memory} (h : m.Intact) : m.Reachable := by
  induction h with
  | empty => exact .empty
  | call c _ _ ih => exact ih.call c
  | resetCounts _ ih => exact ih.resetCounts
  | switch offline _ ih => exact ih.switch offline

theorem Intact.identified {m : Memory} (h : m.Intact) : m.Identified := by
  induction h with
  | empty => exact sound_empty.identified
  | call c _ keeps ih => exact ih.answer keeps
  | resetCounts _ ih => exact ih
  | switch _ _ ih => exact ih

/-- Where every document has an id, the ids are those that are found. -/
theorem map_storedId_of_isSome {documents : List Fields}
    (h : ∀ d ∈ documents, (storedId d).isSome) :
    documents.map storedId = (documents.filterMap storedId).map some := by
  induction documents with
  | nil => rfl
  | cons d rest ih =>
    obtain ⟨id, hid⟩ := Option.isSome_iff_exists.mp (h d (List.mem_cons_self ..))
    rw [List.map_cons, List.filterMap_cons_some hid, List.map_cons, hid,
      ih fun d hd => h d (List.mem_cons_of_mem _ hd)]

/-- A search without conditions gives every document. -/
theorem find_all {m : Memory} (h : m.Identified) (on : m.offline = false) (collection : String)
    (p : Projection) :
    (answer m (.find collection [] p)).1 = .ok ((m.entities collection).map (·.restrict p)) := by
  have hreply := reply_find h on collection [] p
  rwa [List.filter_eq_self.mpr fun e _ => Filter.holds_nil e] at hreply

/-- **As long as no call takes an id away, ids are kept.** Every document has an id in string form,
and no two of a collection share one. An update leaves the ids of all documents as they are, each at
its place, unless it takes one away. While the store is online, a search without conditions succeeds
and gives every document of the collection, known by its id. -/
theorem Intact.ids_kept {m : Memory} (h : m.Intact) :
    (∀ collection, ∀ document ∈ m.documents collection, ∃ id,
        document.get? idField = some (.string id)) ∧
      (∀ collection, ((m.documents collection).map storedId).Nodup) ∧
      (∀ collection id change, ¬ m.TakesId (.update collection id change) → ∀ other,
        ((answer m (.update collection id change)).2.documents other).map storedId
          = (m.documents other).map storedId) ∧
      (m.offline = false → ∀ collection p, ∃ found,
        (answer m (.find collection [] p)).1 = .ok found ∧
          found.map (some ·.id) = (m.documents collection).map storedId) := by
  have hm := h.identified
  refine ⟨fun collection document hd => ?_, fun collection => ?_,
    fun collection id change keeps => map_storedId_update keeps, fun on collection p => ?_⟩
  · obtain ⟨id, hid⟩ := Option.isSome_iff_exists.mp (hm collection document hd)
    exact ⟨id, storedId_eq_some.mp hid⟩
  · rw [map_storedId_of_isSome (hm collection)]
    exact (h.reachable.distinct collection).map fun _ _ => Option.some.inj
  · refine ⟨_, find_all hm on collection p, ?_⟩
    rw [map_storedId_of_isSome (hm collection), ← map_id_entities (hm collection), List.map_map,
      List.map_map]
    rfl

/-- A machine that is given a name and loses it again keeps its id and is found. -/
theorem ids_kept_renamed_machine :
    let machine := (answer .empty (.insert "vm" [bareMachine])).2
    let named := (answer machine
      (.update "vm" "1" (.patch (Dict.ofList [("name", .string "a")]) ["size"]))).2
    let unnamed := (answer named (.update "vm" "1" (.patch .empty ["name"]))).2
    (unnamed.documents "vm").map storedId = [some "1"] ∧
      ∃ found, (answer unnamed (.find "vm" [] .all)).1 = .ok found ∧
        found.map (some ·.id) = [some "1"] := by
  intro machine named unnamed
  have hmachine : machine.Intact := .call _ .empty not_false
  have hnamed : named.Intact := .call _ hmachine fun h => absurd h.1 (by decide)
  have hunnamed : unnamed.Intact := .call _ hnamed fun h => absurd h.1 (by decide)
  have hids : (unnamed.documents "vm").map storedId = [some "1"] := by decide +kernel
  obtain ⟨-, -, -, hfind⟩ := hunnamed.ids_kept
  obtain ⟨found, hfound, hmap⟩ := hfind (by decide +kernel) "vm" .all
  exact ⟨hids, found, hfound, hmap.trans hids⟩

/-- A patch can take the id out of a document: an update that is answered as a success leaves a
machine without an id, and the machines cannot be searched any more. -/
theorem patch_takes_id :
    let machine := (answer .empty (.insert "vm" [bareMachine])).2
    let patched := answer machine (.update "vm" "1" (.patch .empty ["id"]))
    (machine.documents "vm").map storedId = [some "1"] ∧ patched.1 = .ok true ∧
      (patched.2.documents "vm").map storedId = [none] ∧
      (answer patched.2 (.find "vm" [] .all)).1 = .error (.invalidDocument .missingId) := by
  decide +kernel

end LinkedDocs.Memory
