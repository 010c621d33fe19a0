import LinkedDocs.Proofs.Manager.Endings

/-!
# Operations as changes of an ordered map

To a client each collection is a list of documents with distinct ids, in the order in which they
came in. `Operation.Effect` says, for each operation, what success does to these lists: which
document goes where, what is in its visible fields, and that everything else stays as it is, to the
last bookkeeping field.

> `perform_refines`: an operation that succeeds has its effect; one that fails, bulk replacement
> apart, has changed no document and announced nothing. This is so whichever call of the store fails
> and whatever the sink does.
-/

namespace LinkedDocs

open Memory (storedId)

namespace Operation

/-- A document has been stored: in the place of the one with its id, or else at the end of the
collection, which makes it new. -/
inductive Stored (m m' : Memory) (collection : String) (e : Entity) : Bool → Prop where
  | appended (new : Fields) (free : ∀ d ∈ m.documents collection, storedId d ≠ some e.id)
    (shown : Entity.visible new = Entity.visible e.fields)
    (rewritten : m.Rewritten m' collection (m.documents collection ++ [new])) :
    Stored m m' collection e true
  | inPlace (old new : Fields) (exchanged : m.Exchanged m' collection e.id old new)
    (shown : Entity.visible new = Entity.visible e.fields) : Stored m m' collection e false

/-- What a successful operation does to the documents, given its reply. -/
def Effect (m m' : Memory) : (op : Operation) → op.Result → Prop
  | .create collection data, isNew =>
    ∃ e, Entity.ofValue data = .ok e ∧ Stored m m' collection e isNew
  | .replace collection id data, isNew =>
    ∃ e, Entity.ofValue data = .ok e ∧ e.id = id ∧ Stored m m' collection e isNew
  | .patch collection id data, _ =>
    ∃ members, data = .object members ∧
      if members = [] then m.SameDocuments m'
      else ∃ old new, m.Exchanged m' collection id old new ∧
        ∀ name, isInternal name = false →
          new.get? name = Manager.patched (Dict.ofList members) old name
  | .replaceAll collection data, isNew =>
    ∃ entities documents, Manager.collectionOf data = .ok entities ∧
      documents.map Entity.visible = entities.map (fun e => Entity.visible e.fields) ∧
      m.Rewritten m' collection documents ∧
      (isNew = true ↔ m.documents collection = [] ∧ entities ≠ [])
  | .remove collection id, _ =>
    ∃ front old back, m.documents collection = front ++ old :: back ∧ storedId old = some id ∧
      m.Rewritten m' collection (front ++ back)
  | .removeAll collection, _ => m.Rewritten m' collection []

end Operation

namespace Manager

variable {m m' : Memory} {collection : String}

/-- A document that passes the check is the one that the body makes. -/
theorem ofValue_of_documentOf {data : Value} {e : Entity} (h : documentOf data = .ok e) :
    Entity.ofValue data = .ok e := by
  unfold documentOf at h
  cases data with
  | object members =>
    simp only [fieldsOf, bind, Except.bind] at h
    split at h
    · cases h
    · next value hvalue =>
      split at h
      · cases h
      · next id hid =>
        cases h
        exact (Entity.ofFields_eq_ok_iff _ _).mpr ⟨value, id, hvalue, hid, rfl⟩
  | _ => cases h

theorem replacementOf_ok {id : String} {data : Value} {e : Entity}
    (h : replacementOf id data = .ok e) : documentOf data = .ok e ∧ e.id = id := by
  unfold replacementOf at h
  cases hdocument : documentOf data with
  | error fault =>
    rw [hdocument] at h
    cases h
  | ok found =>
    simp only [hdocument, bind, Except.bind] at h
    split at h
    · next hid =>
      cases h
      exact ⟨rfl, hid⟩
    · cases h

theorem PutEnd.stored {body : Except BodyFault Entity} {isNew : Bool} {news : List Notification}
    (h : PutEnd m m' collection body (.ok isNew) news) :
    ∃ e, body = .ok e ∧ Operation.Stored m m' collection e isNew := by
  cases h with
  | added e checked free new shown rewritten =>
    exact ⟨e, checked, .appended new free shown rewritten⟩
  | exchanged e checked old new exchanged shown =>
    exact ⟨e, checked, .inPlace old new exchanged shown⟩

end Manager

namespace Memory

/-- Where every document has an id, no document gets lost among the entities. -/
theorem Identified.isEmpty_entities {m : Memory} (h : m.Identified) (collection : String) :
    (m.entities collection).isEmpty = (m.documents collection).isEmpty := by
  cases hdocuments : m.documents collection with
  | nil => simp [entities, hdocuments]
  | cons d rest =>
    have hd : d ∈ m.documents collection := by simp [hdocuments]
    obtain ⟨id, hid⟩ := Option.isSome_iff_exists.mp (h collection d hd)
    obtain ⟨e, he, -⟩ := entityOf?_of_storedId hid
    rw [entities, hdocuments, List.filterMap_cons_some he]
    rfl

end Memory

namespace Operation

variable {m m' : Memory} {op : Operation} {faulty : Prop} {news : List Notification}

/-- An operation that fails, bulk replacement apart, leaves the documents and announces nothing. -/
theorem Ends.same_of_error {error : ManagerError} (single : op.isBulk = false)
    (h : op.Ends faulty m m' (.error error) news) : m.SameDocuments m' ∧ news = [] := by
  cases op with
  | create collection data | replace collection id data =>
    cases h with
    | failed _ same => exact ⟨same, rfl⟩
  | patch collection id data =>
    cases h with
    | failed _ same => exact ⟨same, rfl⟩
  | replaceAll collection data => cases single
  | remove collection id =>
    cases h with
    | failed _ same => exact ⟨same, rfl⟩
  | removeAll collection =>
    cases h with
    | failed _ same => exact ⟨same, rfl⟩

/-- An operation that succeeds has its effect. -/
theorem Ends.effect (identified : m.Identified) {reply : op.Result}
    (h : op.Ends faulty m m' (.ok reply) news) : op.Effect m m' reply := by
  cases op with
  | create collection data =>
    obtain ⟨e, hbody, hstored⟩ := Manager.PutEnd.stored h
    exact ⟨e, Manager.ofValue_of_documentOf hbody, hstored⟩
  | replace collection id data =>
    obtain ⟨e, hbody, hstored⟩ := Manager.PutEnd.stored h
    obtain ⟨hdocument, hid⟩ := Manager.replacementOf_ok hbody
    exact ⟨e, Manager.ofValue_of_documentOf hdocument, hid, hstored⟩
  | patch collection id data =>
    cases h with
    | idle fields checked blank same =>
      obtain ⟨members, rfl, rfl⟩ := Manager.patchOf_ok checked
      refine ⟨members, rfl, ?_⟩
      rw [if_pos ((Manager.isEmpty_ofList_iff members).mp blank)]
      exact same
    | exchanged fields checked blank old new exchanged patches =>
      obtain ⟨members, rfl, rfl⟩ := Manager.patchOf_ok checked
      have hmembers : members ≠ [] := by
        intro hnil
        rw [(Manager.isEmpty_ofList_iff members).mpr hnil] at blank
        cases blank
      refine ⟨members, rfl, ?_⟩
      rw [if_neg hmembers]
      exact ⟨old, new, exchanged, patches⟩
  | replaceAll collection data =>
    cases h with
    | emptied checked rewritten => exact ⟨[], [], checked, rfl, rewritten, by simp⟩
    | refilled entities checked some_new documents shown rewritten =>
      refine ⟨entities, documents, checked, shown, rewritten, ?_⟩
      rw [identified.isEmpty_entities, List.isEmpty_iff]
      exact (and_iff_left some_new).symm
  | remove collection id =>
    cases h with
    | removed front back old id_old place rewritten =>
      exact ⟨front, old, back, place, id_old, rewritten⟩
  | removeAll collection =>
    cases h with
    | emptied rewritten => exact rewritten

end Operation

namespace Service

variable {σ τ : Type}

/-- A patch without fields does not come to a call. -/
theorem perform_patch_nil (server : Server σ) (sink : Sink τ) (collection id : String)
    (s : Service σ τ) :
    s.perform server sink (.patch collection id (.object [])) = (.ok (), s) := rfl

/-- **Every operation that succeeds has its effect on the documents; one that fails, bulk
replacement apart, has changed no document and announced nothing. One call of the store may fail,
and the sink may do what it likes. A patch without fields succeeds, also where there is no
document.** -/
theorem perform_refines {m : Memory} (managed : m.Managed) (n : Nat) (fault : StoreError)
    (sink : Sink τ) (op : Operation) (selectors : SelectorCache) (t : τ) :
    let start : Service (Nat × Memory) τ := ⟨(0, m), selectors, t⟩
    let ended := start.perform (Memory.answer.failingAt n fault) sink op
    (∀ error, ended.1 = .error error → op.isBulk = false →
      m.SameDocuments ended.2.store.2 ∧ ended.2.sink = t) ∧
    (∀ reply, ended.1 = .ok reply → op.Effect m ended.2.store.2 reply) ∧
    ∀ collection id,
      start.perform (Memory.answer.failingAt n fault) sink (.patch collection id (.object []))
        = (.ok (), start) := by
  intro start ended
  have hended : ended = start.perform (Memory.answer.failingAt n fault) sink op := rfl
  rw [perform_eq] at hended
  cases hlead : Write.lead (Memory.answer.failingAt n fault) op.write [] (0, m) with
  | mk led s' =>
    obtain ⟨result, news⟩ := led
    have fronts := Server.fronts_failingAt n fault
    have sound := managed.sound
    obtain ⟨_, rfl, hends⟩ := op.lead_ends fronts (s := (0, m)) sound hlead
    rw [hlead] at hended
    rw [hended]
    refine ⟨fun error hresult single => ?_, fun reply hresult => ?_, fun collection id => ?_⟩
    · obtain rfl : result = .error error := hresult
      obtain ⟨same, rfl⟩ := hends.same_of_error single
      exact ⟨same, rfl⟩
    · obtain rfl : result = .ok reply := hresult
      exact hends.effect sound.identified
    · exact perform_patch_nil _ sink collection id start

/-- A store with a machine that has a note. -/
def notedMachine : Memory :=
  (Memory.empty.seed "vm" [.object [("id", .number (.integer 1)), ("note", .string "old")]]).2

/-- The note is taken off the machine. -/
theorem perform_refines_note_removed :
    let op : Operation := .patch "vm" "1" (.object [("note", .null)])
    let start : Service (Nat × Memory) Unit := ⟨(0, notedMachine), .ofCapacity 0, ()⟩
    let ended := start.perform (Memory.answer.failingAt 0 Manager.injected) Sink.discard op
    notedMachine.Managed ∧ ended.1 = .ok () ∧ op.Effect notedMachine ended.2.store.2 () := by
  intro op start ended
  have managed : notedMachine.Managed := .seed _ _ .empty (by decide +kernel)
  have hended : ended.1 = .ok () := by decide +kernel
  have hrefines := perform_refines managed 0 Manager.injected Sink.discard op (.ofCapacity 0) ()
  exact ⟨managed, hended, hrefines.2.1 () hended⟩

end Service

end LinkedDocs
