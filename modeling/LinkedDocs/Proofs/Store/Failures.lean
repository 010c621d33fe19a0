import LinkedDocs.Proofs.Store.Reachable

/-!
# Calls that fail, and collections that are listed

A write that the store refuses should leave no trace, and the names of the collections should be
those of the collections that hold something. Both hold with one exception. An insertion sets its
collection up before it looks at the ids, so one that repeats an id where no collection is leaves a
collection behind that holds nothing (`LeavesEmpty`).

> `answer_of_error`: a write that fails leaves the very state it found, or it was such an insertion.
> `failure_leaves_no_trace`: so without such insertions a failed write is as if it had not been
> made, and the names that are listed are those of the collections with documents.

The documents are left alone in any case (`documents_of_error`).
-/

namespace LinkedDocs.Memory

/-- An insertion that fails and still leaves a trace: an id comes twice among the new documents, and
their collection is not there. -/
def LeavesEmpty (m : Memory) : Call → Prop
  | .insert collection entities =>
    m.offline = false ∧ m.collections.get? collection = none ∧ ¬ (entities.map Entity.id).Nodup
  | _ => False

/-- Every collection that is there holds a document. -/
def Tidy (m : Memory) : Prop := ∀ collection, m.collections.get? collection ≠ some []

/-! ## Writes that fail -/

/-- Ids that are distinct from each other and from those that are there are not taken. -/
theorem firstTaken_of_nodup {entities : List Entity} {taken : List String}
    (h : (taken ++ entities.map Entity.id).Nodup) : firstTaken taken entities = none := by
  induction entities generalizing taken with
  | nil => rfl
  | cons e rest ih =>
    have hnot : e.id ∉ taken := fun hmem =>
      (List.nodup_append.mp h).2.2 e.id hmem e.id (List.mem_cons_self ..) rfl
    rw [firstTaken, if_neg (by simpa using hnot)]
    exact ih (by simpa using h)

theorem documents_of_get? {m : Memory} {collection : String} {documents : List Fields}
    (h : m.collections.get? collection = some documents) : m.documents collection = documents := by
  rw [Memory.documents, h]
  rfl

theorem documents_of_get?_eq_none {m : Memory} {collection : String}
    (h : m.collections.get? collection = none) : m.documents collection = [] := by
  rw [Memory.documents, h]
  rfl

/-- A write that fails leaves the state it found, unless it is an insertion that repeats an id where
no collection is. -/
theorem answer_of_error {m m' : Memory} {call : Call} {cause : StoreError} (write : ¬ call.isRead)
    (h : answer m call = (.error cause, m')) : m' = m ∨ m.LeavesEmpty call := by
  cases off : m.offline with
  | true =>
    rw [answer_of_offline off] at h
    cases h
    exact .inl rfl
  | false =>
    have on : ¬ m.offline = true := by simp [off]
    cases call with
    | get | find | collections => exact absurd trivial write
    | insert collection entities =>
      simp only [answer, insert, if_neg on] at h
      split at h
      · next id htaken =>
        cases h
        cases hthere : m.collections.get? collection with
        | some documents =>
          -- the collection is set to what it holds already
          rw [documents_of_get? hthere, Dict.set_of_get? hthere]
          exact .inl rfl
        | none =>
          rw [documents_of_get?_eq_none hthere, List.filterMap_nil] at htaken
          refine .inr ⟨off, hthere, fun hnodup => ?_⟩
          rw [firstTaken_of_nodup hnodup] at htaken
          cases htaken
      · cases h
    | update collection id change =>
      simp only [answer, update, if_neg on] at h
      split at h
      · cases h
      · split at h <;> cases h
        exact .inl rfl
    | remove collection id =>
      simp only [answer, remove, if_neg on] at h
      split at h <;> cases h
    | drop collection =>
      simp only [answer, drop, if_neg on] at h
      cases h

/-- What an insertion that leaves an empty collection behind does to the store. -/
theorem answer_of_leavesEmpty {m : Memory} {collection : String} {entities : List Entity}
    (h : m.LeavesEmpty (.insert collection entities)) :
    (answer m (.insert collection entities)).2
      = { m with collections := m.collections.set collection [] } := by
  obtain ⟨on, hmissing, hrepeats⟩ := h
  have hdocuments := documents_of_get?_eq_none hmissing
  simp only [answer, insert, if_neg (show ¬ m.offline = true by simp [on]), hdocuments]
  split
  · rfl
  · next hfree => exact absurd (nodup_of_firstTaken List.nodup_nil hfree) hrepeats

/-- A call that fails leaves the documents of every collection. -/
theorem documents_of_error {m m' : Memory} {call : Call} {cause : StoreError}
    (h : answer m call = (.error cause, m')) (collection : String) :
    m'.documents collection = m.documents collection := by
  have hm' : m' = (answer m call).2 := by rw [h]
  by_cases read : call.isRead
  · rw [hm']
    exact (answer_read (SameContent.refl m) read).2.documents collection
  · rcases answer_of_error read h with rfl | hleaves
    · rfl
    · cases call with
      | insert name entities =>
        rw [hm', answer_of_leavesEmpty hleaves]
        refine (documents_set m name [] collection).trans ?_
        split
        · next hname => rw [hname, documents_of_get?_eq_none hleaves.2.1]
        · rfl
      | get | find | update | remove | drop | collections => exact hleaves.elim

/-! ## Collections that are listed -/

/-- Writing a collection leaves no empty one behind, wherever none was. -/
theorem Tidy.withDocuments {m : Memory} (h : m.Tidy) (collection : String)
    (documents : List Fields) : (m.withDocuments collection documents).Tidy := by
  intro other
  unfold Memory.withDocuments
  cases documents with
  | nil =>
    show (m.collections.erase collection).get? other ≠ some []
    rw [Dict.erase, Dict.get?_filter]
    intro hempty
    exact h other (Option.filter_eq_some_iff.mp hempty).1
  | cons d rest =>
    show (m.collections.set collection (d :: rest)).get? other ≠ some []
    rw [Dict.get?_set]
    split
    · simp
    · exact h other

theorem Tidy.of_sameContent {m m' : Memory} (h : m.Tidy) (same : m.SameContent m') : m'.Tidy :=
  fun collection => by
    rw [same.1]
    exact h collection

theorem replaceFirst_ne_nil {id : String} {next : Fields} {documents : List Fields}
    (h : documents ≠ []) : replaceFirst id next documents ≠ [] := by
  cases documents with
  | nil => exact absurd rfl h
  | cons d rest =>
    rw [replaceFirst]
    split <;> simp

theorem Tidy.answer {m : Memory} (h : m.Tidy) {call : Call} (orderly : ¬ m.LeavesEmpty call) :
    (Memory.answer m call).2.Tidy := by
  cases off : m.offline with
  | true => rwa [answer_of_offline off]
  | false =>
    have on : ¬ m.offline = true := by simp [off]
    cases call with
    | get | find | collections =>
      refine h.of_sameContent (answer_read (.refl m) ?_).2
      trivial
    | insert collection entities =>
      cases hended : Memory.answer m (.insert collection entities) with
      | mk result m' =>
        cases result with
        | error cause =>
          have write : ¬ (Call.insert collection entities).isRead := not_false
          obtain rfl := (answer_of_error write hended).resolve_right orderly
          exact h
        | ok _ =>
          simp only [Memory.answer, insert, if_neg on] at hended
          split at hended <;> cases hended
          exact h.withDocuments collection _
    | update collection id change =>
      simp only [Memory.answer, update, if_neg on]
      split
      · exact h
      · next document hfound =>
        split
        · exact h
        · intro other
          show (m.collections.set collection _).get? other ≠ some []
          rw [Dict.get?_set]
          split
          · -- a document was found, so the collection holds one
            have hmem := List.mem_of_find?_eq_some hfound
            have hthere : m.documents collection ≠ [] := List.ne_nil_of_mem hmem
            simpa using replaceFirst_ne_nil hthere
          · exact h other
    | remove collection id =>
      simp only [Memory.answer, remove, if_neg on]
      split
      · exact h
      · exact h.withDocuments collection _
    | drop collection =>
      simp only [Memory.answer, drop, if_neg on]
      exact h.withDocuments collection []

/-- In a tidy store the collections that are there are those that hold documents. -/
theorem Tidy.mem_keys_iff {m : Memory} (h : m.Tidy) (name : String) :
    name ∈ m.collections.keys ↔ m.documents name ≠ [] := by
  constructor
  · intro hname hempty
    obtain ⟨documents, hthere⟩ : ∃ documents, m.collections.get? name = some documents := by
      rw [← Option.ne_none_iff_exists']
      exact fun hnone => (m.collections.get?_eq_none_iff name).mp hnone hname
    rw [documents_of_get? hthere] at hempty
    exact h name (hempty ▸ hthere)
  · intro hthere
    by_contra hname
    exact hthere (documents_eq_nil hname)

/-- The content that calls have led to from the empty store, none of them an insertion that leaves
an empty collection behind. -/
inductive Orderly : Memory → Prop where
  | empty : Orderly .empty
  | call {m : Memory} (call : Call) : Orderly m → ¬ m.LeavesEmpty call → Orderly (answer m call).2
  | resetCounts {m : Memory} : Orderly m → Orderly m.resetCounts
  | switch {m : Memory} (offline : Bool) : Orderly m → Orderly { m with offline := offline }

theorem Orderly.tidy {m : Memory} (h : m.Orderly) : m.Tidy := by
  induction h with
  | empty =>
    intro collection hempty
    cases hempty
  | call c _ orderly ih => exact ih.answer orderly
  | resetCounts _ ih => exact ih
  | switch _ _ ih => exact ih

/-- **Without insertions that repeat an id where no collection is, a write that fails leaves the
very state it found, and the names that are listed are those of the collections with documents.** -/
theorem failure_leaves_no_trace (m : Memory) :
    (∀ call cause, ¬ call.isRead → ¬ m.LeavesEmpty call → (answer m call).1 = .error cause →
      (answer m call).2 = m) ∧
    (m.Orderly → m.offline = false → ∃ names, (answer m .collections).1 = .ok names ∧
      names.Pairwise (· < ·) ∧ ∀ name, name ∈ names ↔ m.documents name ≠ []) := by
  constructor
  · intro call cause write orderly hfails
    exact (answer_of_error write (Prod.ext hfails rfl)).resolve_right orderly
  · intro horderly on
    refine ⟨sortedNames m.collections.keys, ?_, pairwise_sortedNames _, fun name => ?_⟩
    · simp [answer, names, on]
    · rw [mem_sortedNames]
      exact horderly.tidy.mem_keys_iff name

/-- A machine without any fields but its id. -/
def bareMachine : Entity := .withId .empty "1"

/-- A store with one machine refuses another one with its id, and lists the machines still. -/
theorem failure_leaves_no_trace_taken_id :
    let m := (answer .empty (.insert "vm" [bareMachine])).2
    (answer m (.insert "vm" [bareMachine])).2 = m ∧
      ∃ names, (answer m .collections).1 = .ok names ∧ names.Pairwise (· < ·) ∧
        ∀ name, name ∈ names ↔ m.documents name ≠ [] := by
  intro m
  have hlisted : m.collections.get? "vm" ≠ none := by decide +kernel
  have hm : m.Orderly := .call _ .empty fun h => h.2.2 (by decide)
  obtain ⟨hfails, hnames⟩ := failure_leaves_no_trace m
  refine ⟨hfails (.insert "vm" [bareMachine]) (.duplicateId "vm" "1") not_false ?_ ?_, ?_⟩
  · exact fun h => hlisted h.2.1
  · decide +kernel
  · exact hnames hm (by decide +kernel)

/-- Two machines with one id are refused, and yet there is a collection then, without documents. -/
theorem failed_insert_leaves_empty_collection :
    let ended := answer .empty (.insert "vm" [bareMachine, bareMachine])
    ended.1 = .error (.duplicateId "vm" "1") ∧ ended.2.documents "vm" = [] ∧
      (answer ended.2 .collections).1 = .ok ["vm"] ∧ (answer .empty .collections).1 = .ok [] := by
  decide +kernel

end LinkedDocs.Memory
