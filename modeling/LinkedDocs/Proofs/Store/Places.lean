import LinkedDocs.Proofs.Dict
import LinkedDocs.Proofs.Store.Writes

/-!
# The places of fields in a patched document

A patch leaves fields where they are, writes new values in place and puts new fields at the end.
`amended` says what this makes of a document. The store also takes out the revision of the document
first, and there the last field moves into the hole. For a document that came without a revision
this does not matter, because the store has put its own at the end. A client's document may hold one
elsewhere, though, and the store leaves it at that place.

> `patch_places`: a patched document has the fields of `amended`, and has them in that order unless
> the last field jumps (`LastJumps`).
-/

namespace LinkedDocs

namespace Memory

variable {m : Memory} {collection id : String} {document next set : Fields} {unset : List String}

/-! ## Patched documents -/

/-- Whether a field leaves the store, and a patch that takes out some names leaves it there. -/
def stays (unset : List String) (field : String × Value) : Bool :=
  !isInternal field.1 && !unset.contains field.1

/-- The visible fields of a patched document: what stays, in place, with the values that are set,
and then what was not there. -/
def amended (document set : Fields) (unset : List String) : List (String × Value) :=
  (document.entries.filter (stays unset)).map (Dict.newer set.entries)
    ++ set.entries.filter fun field => !isInternal field.1 && !document.contains field.1

/-- The revision of a document stands in front of two fields that stay, and one of these is the last
field of all. -/
def LastJumps (document : Fields) (unset : List String) : Prop :=
  ∃ front revision between last,
    document.entries = front ++ (revisionField, revision) :: (between ++ [last]) ∧
      stays unset last = true ∧ ∃ field ∈ between, stays unset field = true

theorem stays_revisionField (unset : List String) (value : Value) :
    stays unset (revisionField, value) = false := by
  have internal : isInternal revisionField = true := by decide
  simp [stays, internal]

/-- What a patch shows is what it makes of the document without its revision. -/
theorem entries_visible_patched (apart : ∀ name ∈ unset, set.get? name = none)
    (id_free : set.get? idField = none) (h : changed document id (.patch set unset) = .ok next) :
    (Entity.visible next).entries = amended (document.swapErase revisionField) set unset := by
  simp only [changed] at h
  cases h
  have hset : set.entries.filter (fun pair => pair.1 != idField) = set.entries := by
    refine List.filter_eq_self.mpr ?_
    intro pair hpair
    have hne : pair.1 ≠ idField := by
      intro heq
      rw [← heq, set.get?_of_mem hpair] at id_free
      cases id_free
    simpa using hne
  rw [hset, Entity.visible, Dict.entries_filter, Dict.entries_foldl_set set.nodup,
    Dict.entries_foldl_erase, List.filter_append, List.filter_map, List.filter_filter, amended]
  congr 1
  rw [List.filter_filter]
  refine List.filter_congr ?_
  intro pair hpair
  -- what is set is not taken out, so it is there after that if it was there before
  have hkept : pair.1 ∉ unset := by
    intro hmem
    have hnone := apart _ hmem
    rw [set.get?_of_mem hpair] at hnone
    cases hnone
  rw [Dict.contains, get?_foldl_erase, if_neg hkept, Dict.contains]

/-- Taking the revision out takes out nothing that leaves the store. -/
theorem staying_perm (document : Fields) (unset : List String) :
    ((document.swapErase revisionField).entries.filter (stays unset)).Perm
      (document.entries.filter (stays unset)) := by
  have hperm := (Dict.swapOut_perm revisionField document.entries document.nodup).filter
    (stays unset)
  rw [List.filter_filter] at hperm
  refine hperm.trans (.of_eq (List.filter_congr ?_))
  intro pair _
  by_cases hname : pair.1 = revisionField
  · obtain ⟨name, value⟩ := pair
    obtain rfl : name = revisionField := hname
    simp [stays_revisionField]
  · simp [hname]

/-- Where the last field does not jump, what stays keeps its order. -/
theorem staying_eq (h : ¬ LastJumps document unset) :
    (document.swapErase revisionField).entries.filter (stays unset)
      = document.entries.filter (stays unset) := by
  by_cases hthere : revisionField ∈ document.keys
  · obtain ⟨⟨name, revision⟩, hmem, hname⟩ := List.mem_map.mp hthere
    obtain rfl : name = revisionField := hname
    obtain ⟨front, rest, hdocument⟩ := List.append_of_mem hmem
    have hrevision : stays unset (revisionField, revision) = false := stays_revisionField ..
    rw [Dict.entries_swapErase hdocument, hdocument, List.filter_append, List.filter_append,
      List.filter_cons_of_neg (by simp [hrevision])]
    congr 1
    rcases List.eq_nil_or_concat rest with rfl | ⟨between, last, rfl⟩
    · simp [Dict.swapOut]
    · rw [List.concat_eq_append] at hdocument ⊢
      rw [Dict.swapOut_cons_concat, List.filter_append]
      by_cases hlast : stays unset last = true
      · -- then nothing between the two stays
        have hnone : between.filter (stays unset) = [] := by
          refine List.filter_eq_nil_iff.mpr ?_
          intro field hfield hstays
          exact h ⟨front, revision, between, last, hdocument, hlast, field, hfield, hstays⟩
        simp [hlast, hnone]
      · simp [hlast]
  · show (Dict.swapOut revisionField document.entries).filter _ = _
    rw [Dict.swapOut_of_not_mem hthere]

/-- Where the last field jumps, the names that stay come in another order. -/
theorem names_staying_ne (h : LastJumps document unset) :
    ((document.swapErase revisionField).entries.filter (stays unset)).map Prod.fst
      ≠ (document.entries.filter (stays unset)).map Prod.fst := by
  obtain ⟨front, revision, between, last, hdocument, hlast, field, hfield, hstays⟩ := h
  have hrevision : stays unset (revisionField, revision) = false := stays_revisionField ..
  obtain ⟨first, others, hbetween⟩ : ∃ first others,
      between.filter (stays unset) = first :: others :=
    List.exists_cons_of_ne_nil (List.ne_nil_of_mem (List.mem_filter.mpr ⟨hfield, hstays⟩))
  have hfirst : first ∈ between := by
    have hmem : first ∈ between.filter (stays unset) := by simp [hbetween]
    exact List.mem_of_mem_filter hmem
  have hne : last.1 ≠ first.1 := by
    have hnodup := document.nodup
    rw [hdocument] at hnodup
    intro heq
    simp only [List.map_append, List.map_cons, List.map_nil] at hnodup
    have hrest := (List.nodup_cons.mp (List.nodup_append.mp hnodup).2.1).2
    exact (List.nodup_append.mp hrest).2.2 _ (List.mem_map_of_mem hfirst) _
      (List.mem_singleton_self _) heq.symm
  rw [Dict.entries_swapErase hdocument, hdocument, Dict.swapOut_cons_concat]
  simp [hrevision, hlast, hbetween, hne]

/-- Without its revision a document has the same visible fields. -/
theorem contains_swapErase_revision (document : Fields) {name : String}
    (shown : isInternal name = false) :
    (document.swapErase revisionField).contains name = document.contains name := by
  have hne : name ≠ revisionField := by
    rintro rfl
    revert shown
    decide
  rw [Dict.contains, Dict.get?_swapErase, if_neg hne, Dict.contains]

/-- What a patch makes of a document without its revision is what it makes of the document, but for
the order of what stays. -/
theorem amended_swapErase (document set : Fields) (unset : List String) :
    amended (document.swapErase revisionField) set unset
      = ((document.swapErase revisionField).entries.filter (stays unset)).map
          (Dict.newer set.entries)
        ++ set.entries.filter fun field => !isInternal field.1 && !document.contains field.1 := by
  rw [amended]
  congr 1
  refine List.filter_congr ?_
  intro field _
  cases hshown : isInternal field.1 with
  | true => rfl
  | false => rw [contains_swapErase_revision document hshown]

theorem amended_perm (document set : Fields) (unset : List String) :
    (amended (document.swapErase revisionField) set unset).Perm (amended document set unset) := by
  rw [amended_swapErase]
  exact ((staying_perm document unset).map _).append_right _

theorem amended_eq_iff (document set : Fields) (unset : List String) :
    amended (document.swapErase revisionField) set unset = amended document set unset ↔
      ¬ LastJumps document unset := by
  rw [amended_swapErase]
  constructor
  · intro h hjumps
    have hstaying := List.append_cancel_right h
    refine names_staying_ne hjumps ?_
    -- a new value leaves the name
    have hnames := congrArg (List.map Prod.fst) hstaying
    rwa [List.map_map, List.map_map] at hnames
  · intro h
    rw [staying_eq h]
    rfl

/-- A document that came without a revision has the one of the store last. -/
theorem not_lastJumps_stamp {fields : Fields} (h : fields.get? revisionField = none)
    (revision : Nat) (unset : List String) : ¬ LastJumps (stamp revision fields) unset := by
  intro hjumps
  obtain ⟨front, value, between, last, hdocument, hlast, -⟩ := hjumps
  have hstamp : (stamp revision fields).entries
      = fields.entries ++ [(revisionField, .ofInt revision)] :=
    Dict.entries_set_of_not_mem ((fields.get?_eq_none_iff revisionField).mp h)
  rw [hstamp, ← List.cons_append, ← List.append_assoc] at hdocument
  have hsame : (revisionField, Value.ofInt revision) = last :=
    List.singleton_inj.mp (List.append_inj_right' hdocument rfl)
  rw [← hsame, stays_revisionField] at hlast
  cases hlast

/-! ## Patches of a store -/

/-- The document that is written over is found with what is written. -/
theorem find?_replaceFirst {documents : List Fields}
    (found : documents.find? (hasId id) = some document) (same : hasId id next = true) :
    (replaceFirst id next documents).find? (hasId id) = some next := by
  induction documents with
  | nil => cases found
  | cons first rest ih =>
    by_cases hfirst : hasId id first = true
    · rw [replaceFirst, if_pos hfirst, List.find?_cons_of_pos same]
    · rw [List.find?_cons_of_neg hfirst] at found
      rw [replaceFirst, if_neg hfirst, List.find?_cons_of_neg hfirst]
      exact ih found

/-- An update that can be made is made of the document that is found. -/
theorem update_of_found {change : Update} (online : m.offline = false)
    (found : (m.documents collection).find? (hasId id) = some document)
    (made : changed document id change = .ok next) :
    let updated := answer m (.update collection id change)
    updated.1 = .ok true ∧ updated.2.offline = false ∧
      updated.2.documents collection
        = replaceFirst id (stamp (m.revision + 1) next) (m.documents collection) := by
  intro updated
  have hupdated : updated = (.ok true, { m with
      collections := m.collections.set collection
        (replaceFirst id (stamp (m.revision + 1) next) (m.documents collection))
      revision := m.revision + 1 }) := by
    show update m collection id change = _
    simp only [update, online, found, made, Bool.false_eq_true, if_false]
  rw [hupdated]
  exact ⟨rfl, online, (documents_set m collection _ collection).trans (if_pos rfl)⟩

/-- Getting a document gets its visible fields. -/
theorem get_of_found (online : m.offline = false)
    (found : (m.documents collection).find? (hasId id) = some document) :
    ∃ e, (answer m (.get collection id .all)).1 = .ok (some e) ∧
      e.fields = Entity.visible document := by
  have hid : storedId document = some id := hasId_iff.mp (List.find?_some found)
  obtain ⟨e, he, hload, -⟩ := load_of_storedId hid .all
  obtain ⟨e', he', hfields, -⟩ := ofStored_of_storedId hid
  refine ⟨e, ?_, ?_⟩
  · have hreply : (answer m (.get collection id .all)).1 = (load document .all).map some := by
      simp [answer, get, online, found]
    rw [hreply, hload, Entity.restrict_all]
    rfl
  · rw [entityOf?, he'] at he
    cases he
    exact hfields

/-- **A patch touches what it names only, unless the last field jumps.** The document that is found
has the fields that stay, with the values that are set, and those that are set anew; and they are in
their places, the new ones at the end, except where the stored document has its revision in front of
its last field and another one that both stay. -/
theorem patch_places (set : Fields) (unset : List String) (online : m.offline = false)
    (found : (m.documents collection).find? (hasId id) = some document)
    (apart : ∀ name ∈ unset, set.get? name = none) (id_free : set.get? idField = none)
    (id_kept : idField ∉ unset) :
    let patched := answer m (.update collection id (.patch set unset))
    patched.1 = .ok true ∧
      ∃ e, (answer patched.2 (.get collection id .all)).1 = .ok (some e) ∧
        e.fields.entries.Perm (amended document set unset) ∧
        (e.fields.entries = amended document set unset ↔ ¬ LastJumps document unset) := by
  intro patched
  obtain ⟨next, hnext⟩ : ∃ next, changed document id (.patch set unset) = .ok next := ⟨_, rfl⟩
  obtain ⟨hdone, honline, hdocuments⟩ := update_of_found online found hnext
  have hid : hasId id (stamp (m.revision + 1) next) = true := by
    rw [hasId_iff, storedId_stamp, storedId_patched hnext id_kept]
    exact hasId_iff.mp (List.find?_some found)
  have hfound : (patched.2.documents collection).find? (hasId id)
      = some (stamp (m.revision + 1) next) := by
    rw [hdocuments]
    exact find?_replaceFirst found hid
  obtain ⟨e, hget, hfields⟩ := get_of_found honline hfound
  have hentries : e.fields.entries = amended (document.swapErase revisionField) set unset := by
    rw [hfields, visible_stamp, entries_visible_patched apart id_free hnext]
  refine ⟨hdone, e, hget, ?_, ?_⟩
  · rw [hentries]
    exact amended_perm document set unset
  · rw [hentries]
    exact amended_eq_iff document set unset

/-- A machine with a name and a size. -/
def namedMachine : Entity :=
  .withId (Dict.ofList [("id", .string "1"), ("name", .string "a"), ("size", .ofInt 2)]) "1"

/-- A machine loses its name, gets another size in place and a note at the end. -/
theorem patch_places_resized_machine :
    let m := (answer .empty (.insert "vm" [namedMachine])).2
    let set := Dict.ofList [("note", .string "x"), ("size", .ofInt 3)]
    let patched := answer m (.update "vm" "1" (.patch set ["name"]))
    patched.1 = .ok true ∧
      ∃ e, (answer patched.2 (.get "vm" "1" .all)).1 = .ok (some e) ∧
        e.fields.entries = [("id", .string "1"), ("size", .ofInt 3), ("note", .string "x")] := by
  intro m set patched
  have hfound : (m.documents "vm").find? (hasId "1") = some (stamp 1 namedMachine.fields) := by
    decide +kernel
  obtain ⟨hdone, e, hget, -, hplaces⟩ :=
    patch_places set ["name"] (by decide +kernel) hfound (by decide) (by decide) (by decide)
  have hrevision : ¬ LastJumps (stamp 1 namedMachine.fields) ["name"] :=
    not_lastJumps_stamp (by decide) 1 ["name"]
  refine ⟨hdone, e, hget, (hplaces.mpr hrevision).trans ?_⟩
  decide +kernel

/-- The same machine, as a client may send it, with a field of the name of the revision in front. -/
def revisedMachine : Entity :=
  .withId (Dict.ofList [("_rev", .ofInt 0), ("id", .string "1"), ("name", .string "a"),
    ("size", .ofInt 2)]) "1"

/-- A patch that sets a note moves the size to the front. -/
theorem patch_moves_last_field :
    let m := (answer .empty (.insert "vm" [revisedMachine])).2
    let set := Dict.ofList [("note", .string "x")]
    let patched := answer m (.update "vm" "1" (.patch set []))
    patched.1 = .ok true ∧
      (answer patched.2 (.get "vm" "1" .all)).1 = .ok (some (.withId (Dict.ofList
        [("size", .ofInt 2), ("id", .string "1"), ("name", .string "a"), ("note", .string "x")])
        "1")) ∧
      amended (stamp 1 revisedMachine.fields) set []
        = [("id", .string "1"), ("name", .string "a"), ("size", .ofInt 2),
          ("note", .string "x")] := by
  decide +kernel

end Memory

end LinkedDocs
