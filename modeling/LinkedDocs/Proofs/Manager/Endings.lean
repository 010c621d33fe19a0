import LinkedDocs.Proofs.Manager.Calls

/-!
# How operations end

Led with a server in front of a sound store, a write ends in one of a few ways. For each kind of
write they are listed as the cases of an inductive proposition (`PutEnd`, `PatchEnd`, `RemoveEnd`,
`RemoveAllEnd`, `ReplaceAllEnd`), which ties together the result, the announcements and the
documents before and after; one lemma for each says that there are no others (`put_ends` and so on).

> `Operation.lead_ends`: every operation ends in one of these ways (`Operation.Ends`).

What is proved of operations later is proved by cases of them.

Nearly all writes that fail leave the documents. The exception is the replacement of a collection
whose insertion fails after the drop (`ReplaceAllEnd.lost`), and then it is the server in front that
has failed it.
-/

namespace LinkedDocs

open Memory (storedId hasId)

namespace Write

/-! ## Steps that make one call -/

/-- The write asks a single call and ends as it is answered. -/
def Asks {call : Call} (w : Write call.Reply) (wrap : StoreError → ManagerError) : Prop :=
  ∀ (σ : Type) (server : Server σ) (announced : List Notification) (s : σ),
    lead server w announced s
      = (((server s call).1.mapError wrap, announced), (server s call).2)

theorem asks_ask (call : Call) : Asks (ask call) .store := fun _ server announced s =>
  lead_ask server announced s call

theorem asks_loadAll (collection : String) :
    @Asks (.find collection [] .all) (query (Query.loadAll collection))
      (fun cause => .query (.ofStore cause)) := fun _ _ _ _ => lead_loadAll

theorem asks_load (collection id : String) :
    @Asks (.get collection id .all) (query (Query.load collection id))
      (fun cause => .query (.ofStore cause)) := by
  intro σ server announced s
  rw [lead_query, Query.load_eq, Dialogue.run]
  generalize server s (.get collection id .all) = answered
  obtain ⟨answer, t⟩ := answered
  cases answer <;> rfl

variable {σ β : Type} {server : Server σ} {store : σ → Memory} {call : Call}
  {w : Write call.Reply} {wrap : StoreError → ManagerError} {f : call.Reply → Write β}
  {announced announced' : List Notification} {s s' : σ} {result : Except ManagerError β}

/-- A write that starts with a read fails there and leaves the content, or goes on with what the
store has answered. -/
theorem Asks.bind_read (hw : Asks w wrap) (fronts : server.Fronts store) (read : call.isRead)
    (h : lead server (w >>= f) announced s = ((result, announced'), s')) :
    (∃ error, result = .error error ∧ announced' = announced ∧
      (store s).SameContent (store s')) ∨
    ∃ reply t, Memory.answer (store s) call = (.ok reply, store t) ∧
      (store s).SameContent (store t) ∧
      lead server (f reply) announced t = ((result, announced'), s') := by
  rw [lead_bind, hw] at h
  have hsame := fronts.sameContent (s := s) read
  cases hcall : server s call with
  | mk answer t =>
    rw [hcall] at h hsame
    cases answer with
    | error cause =>
      cases h
      exact .inl ⟨_, rfl, rfl, hsame⟩
    | ok reply => exact .inr ⟨reply, t, fronts.ok hcall, hsame, h⟩

/-- A write that starts with a call fails there and leaves the documents, or goes on with what the
store has answered. -/
theorem Asks.bind_write (hw : Asks w wrap) (fronts : server.Fronts store)
    (h : lead server (w >>= f) announced s = ((result, announced'), s')) :
    (∃ error cause, result = .error error ∧ announced' = announced ∧
      server s call = (.error cause, s')) ∨
    ∃ reply t, Memory.answer (store s) call = (.ok reply, store t) ∧
      lead server (f reply) announced t = ((result, announced'), s') := by
  rw [lead_bind, hw] at h
  cases hcall : server s call with
  | mk answer t =>
    rw [hcall] at h
    cases answer with
    | error cause =>
      cases h
      exact .inl ⟨_, cause, rfl, rfl, rfl⟩
    | ok reply => exact .inr ⟨reply, t, fronts.ok hcall, h⟩

/-- A write that starts with a check is refused there, or goes on with what has passed. -/
theorem lead_check_bind {α : Type} {checked : Except BodyFault α} {f : α → Write β}
    (h : lead server (check checked >>= f) announced s = ((result, announced'), s')) :
    (∃ error, result = .error error ∧ announced' = announced ∧ s' = s) ∨
    ∃ a, checked = .ok a ∧ lead server (f a) announced s = ((result, announced'), s') := by
  rw [lead_bind, lead_check] at h
  cases checked with
  | error fault =>
    cases h
    exact .inl ⟨_, rfl, rfl, rfl⟩
  | ok a => exact .inr ⟨a, rfl, h⟩

end Write

namespace Manager

variable {m m' : Memory} {collection id : String}

/-! ## Endings -/

/-- How storing the document in a body ends. -/
inductive PutEnd (m m' : Memory) (collection : String) (body : Except BodyFault Entity) :
    Except ManagerError Bool → List Notification → Prop where
  | failed (error : ManagerError) (same : m.SameDocuments m') :
    PutEnd m m' collection body (.error error) []
  /-- There is no document with the id, and the new one goes to the end. -/
  | added (e : Entity) (checked : body = .ok e)
    (free : ∀ d ∈ m.documents collection, storedId d ≠ some e.id) (new : Fields)
    (shown : Entity.visible new = Entity.visible e.fields)
    (rewritten : m.Rewritten m' collection (m.documents collection ++ [new])) :
    PutEnd m m' collection body (.ok true) [⟨collection, e.id, .created⟩]
  /-- The document with the id gives way to the new one. -/
  | exchanged (e : Entity) (checked : body = .ok e) (old new : Fields)
    (exchanged : m.Exchanged m' collection e.id old new)
    (shown : Entity.visible new = Entity.visible e.fields) :
    PutEnd m m' collection body (.ok false)
      (Notification.updated? collection e.id
        (Change.between (Entity.visible old) e.fields m.listing)).toList

/-- The value of a field after a patch: the id stays, `null` takes a field out, any other value is
set, and what the patch does not name stays. -/
def patched (patch document : Fields) (name : String) : Option Value :=
  if name = idField then document.get? name
  else
    match patch.get? name with
    | none => document.get? name
    | some value => if value.isNull then none else some value

/-- How patching a document ends. -/
inductive PatchEnd (m m' : Memory) (collection id : String) (data : Value) :
    Except ManagerError Unit → List Notification → Prop where
  | failed (error : ManagerError) (same : m.SameDocuments m') :
    PatchEnd m m' collection id data (.error error) []
  /-- A patch without fields does not even look for the document. -/
  | idle (fields : Fields) (checked : patchOf id data = .ok fields)
    (blank : fields.isEmpty = true) (same : m.SameDocuments m') :
    PatchEnd m m' collection id data (.ok ()) []
  | exchanged (fields : Fields) (checked : patchOf id data = .ok fields)
    (blank : fields.isEmpty = false) (old new : Fields)
    (exchanged : m.Exchanged m' collection id old new)
    (patches : ∀ name, isInternal name = false → new.get? name = patched fields old name) :
    PatchEnd m m' collection id data (.ok ())
      (Notification.updated? collection id
        (Change.ofPatch (Entity.visible old) fields m.listing)).toList

/-- How deleting a document ends. -/
inductive RemoveEnd (m m' : Memory) (collection id : String) :
    Except ManagerError Unit → List Notification → Prop where
  | failed (error : ManagerError) (same : m.SameDocuments m') :
    RemoveEnd m m' collection id (.error error) []
  | removed (front back : List Fields) (old : Fields) (id_old : storedId old = some id)
    (place : m.documents collection = front ++ old :: back)
    (rewritten : m.Rewritten m' collection (front ++ back)) :
    RemoveEnd m m' collection id (.ok ()) [⟨collection, id, .deleted⟩]

/-- How deleting a collection ends. -/
inductive RemoveAllEnd (m m' : Memory) (collection : String) :
    Except ManagerError Unit → List Notification → Prop where
  | failed (error : ManagerError) (same : m.SameDocuments m') :
    RemoveAllEnd m m' collection (.error error) []
  | emptied (rewritten : m.Rewritten m' collection []) :
    RemoveAllEnd m m' collection (.ok ())
      (Notification.ofDeleted collection ((m.documents collection).filterMap storedId))

/-- How replacing a collection ends, where `faulty` tells whether the server in front fails calls by
itself. -/
inductive ReplaceAllEnd (faulty : Prop) (m m' : Memory) (collection : String) (data : Value) :
    Except ManagerError Bool → List Notification → Prop where
  | failed (error : ManagerError) (same : m.SameDocuments m') :
    ReplaceAllEnd faulty m m' collection data (.error error) []
  /-- The insertion fails after the drop. -/
  | lost (error : ManagerError) (fault : faulty) (rewritten : m.Rewritten m' collection []) :
    ReplaceAllEnd faulty m m' collection data (.error error) []
  | emptied (checked : collectionOf data = .ok []) (rewritten : m.Rewritten m' collection []) :
    ReplaceAllEnd faulty m m' collection data (.ok false)
      (Notification.ofDeleted collection ((m.documents collection).filterMap storedId))
  | refilled (entities : List Entity) (checked : collectionOf data = .ok entities)
    (some_new : entities ≠ []) (documents : List Fields)
    (shown : documents.map Entity.visible = entities.map fun e => Entity.visible e.fields)
    (rewritten : m.Rewritten m' collection documents) :
    ReplaceAllEnd faulty m m' collection data (.ok (m.entities collection).isEmpty)
      (Notification.ofCollection collection
        (CollectionChange.between (m.entities collection) entities m.listing))

/-! ## Patches -/

theorem patchOf_ok {id : String} {data : Value} {fields : Fields}
    (h : patchOf id data = .ok fields) :
    ∃ members, data = .object members ∧ fields = Dict.ofList members := by
  cases data with
  | object members =>
    simp only [patchOf, fieldsOf, bind, Except.bind] at h
    refine ⟨members, rfl, ?_⟩
    split at h
    · cases h
      rfl
    · split at h <;> cases h
      rfl
  | _ => cases h

/-- A patch that passes the check does not take the id out. -/
theorem patchOf_ne_idField {id : String} {data : Value} {fields : Fields}
    (h : patchOf id data = .ok fields) {name : String} (unset : fields.get? name = some .null) :
    name ≠ idField := by
  intro hname
  subst hname
  cases hfields : fieldsOf data with
  | error fault =>
    simp [patchOf, hfields, bind, Except.bind] at h
  | ok found =>
    simp only [patchOf, hfields, bind, Except.bind] at h
    split at h
    · next hnone =>
      cases h
      rw [unset] at hnone
      cases hnone
    · next value hvalue =>
      split at h
      · next hid =>
        cases h
        rw [unset] at hvalue
        cases hvalue
        cases hid
      · cases h

theorem isEmpty_ofList_iff (members : List (String × Value)) :
    (Dict.ofList members).isEmpty = true ↔ members = [] := by
  constructor
  · intro hempty
    by_contra hne
    -- the last member is there
    obtain ⟨front, last, hmembers⟩ := (List.eq_nil_or_concat members).resolve_left hne
    rw [List.concat_eq_append] at hmembers
    subst hmembers
    have hlast : (Dict.ofList (front ++ [last])).get? last.1 = some last.2 := by
      rw [Dict.ofList, List.foldl_append]
      exact Dict.get?_set_self ..
    have hnil : (Dict.ofList (front ++ [last])).entries = [] := List.isEmpty_iff.mp hempty
    rw [Dict.get?, hnil] at hlast
    cases hlast
  · intro hnil
    rw [hnil]
    rfl

theorem mem_removals_iff (patch : Fields) (name : String) :
    name ∈ removals patch ↔ name ≠ idField ∧ ∃ value, patch.get? name = some value ∧
      value.isNull = true := by
  have hkeys : name ∈ removals patch ↔ (patch.filter fun name value =>
      name != idField && value.isNull).get? name ≠ none := by
    rw [ne_eq, Dict.get?_eq_none_iff, not_not]
    rfl
  rw [hkeys, Dict.get?_filter]
  cases patch.get? name with
  | none => simp
  | some value => simp [Option.filter]

/-- What the two halves of a patch do to a field is what the patch does to it. -/
theorem patched_eq (patch document : Fields) {name : String} (hid : name ≠ idField) :
    ((settings patch).get? name).or (if name ∈ removals patch then none else document.get? name)
      = patched patch document name := by
  rw [patched, if_neg hid, settings, Dict.get?_filter]
  by_cases hremoved : name ∈ removals patch
  · obtain ⟨-, value, hvalue, hnull⟩ := (mem_removals_iff patch name).mp hremoved
    simp [hremoved, hvalue, hnull]
  · rw [if_neg hremoved]
    cases hvalue : patch.get? name with
    | none => rfl
    | some value =>
      have hset : value.isNull = false := by
        rw [← Bool.not_eq_true]
        exact fun hnull => hremoved ((mem_removals_iff patch name).mpr ⟨hid, value, hvalue, hnull⟩)
      simp [hid, hset]

/-- The visible fields of what the store makes of a patched document. -/
theorem get?_stamp_patched {old next fields : Fields} {revision : Nat}
    (hchanged : Memory.changed old id (.patch (settings fields) (removals fields)) = .ok next)
    (hold : storedId old = some id) {name : String} (hshown : isInternal name = false) :
    (Memory.stamp revision next).get? name = patched fields old name := by
  have hrevision : name ≠ revisionField := by
    intro hname
    rw [hname] at hshown
    exact absurd hshown (by decide)
  rw [Memory.stamp, Dict.get?_set_of_ne next _ hrevision]
  by_cases hid : name = idField
  · subst hid
    have hnext := Memory.storedId_patched hchanged (idField_not_mem_removals fields)
    rw [hold] at hnext
    rw [patched, if_pos rfl, Memory.storedId_eq_some.mp hnext, Memory.storedId_eq_some.mp hold]
  · rw [Memory.get?_patched hchanged hid hrevision, patched_eq fields old hid]

/-! ## No other endings -/

section

variable {σ : Type} {server : Server σ} {store : σ → Memory} (fronts : server.Fronts store)
  {announced announced' : List Notification} {s s' : σ} (sound : (store s).Sound)

include fronts sound

theorem put_ends {body : Except BodyFault Entity} {result : Except ManagerError Bool}
    (h : Write.lead server (Write.check body >>= put collection) announced s
      = ((result, announced'), s')) :
    ∃ news, announced' = announced ++ news ∧
      PutEnd (store s) (store s') collection body result news := by
  -- the check of the body
  rcases Write.lead_check_bind h with ⟨error, rfl, rfl, rfl⟩ | ⟨e, hchecked, h⟩
  · exact ⟨[], by simp, .failed error fun _ => rfl⟩
  unfold put at h
  -- the look for the document
  rcases (Write.asks_load collection e.id).bind_read fronts trivial h with
    ⟨error, rfl, rfl, same⟩ | ⟨found, t₁, hget, same₁, h₁⟩
  · exact ⟨[], by simp, .failed error same.documents⟩
  cases found with
  | none =>
    have hfree := Memory.get_missing sound.identified hget
    -- the insertion
    rcases (Write.asks_ask _).bind_write fronts h₁ with
      ⟨error, cause, rfl, rfl, hfails⟩ | ⟨_, t₂, hinsert, h₂⟩
    · refine ⟨[], by simp, .failed error fun c => ?_⟩
      rw [fronts.documents_of_error hfails, same₁.documents]
    · have hrewritten := (Memory.insert_ok hinsert).2.of_same same₁
      rw [same₁.documents] at hrewritten
      rw [Write.lead_bind, Write.lead_announce] at h₂
      cases h₂
      exact ⟨_, rfl, .added e hchecked hfree _ (Memory.visible_stamp _ _) hrewritten⟩
  | some before =>
    obtain ⟨old, hfound, hbefore⟩ := Memory.get_found sound.identified hget
    -- the names of the collections
    rcases (Write.asks_ask .collections).bind_read fronts trivial h₁ with
      ⟨error, rfl, rfl, same⟩ | ⟨names, t₂, hnames, same₂, h₂⟩
    · exact ⟨[], by simp, .failed error (same₁.trans same).documents⟩
    have hlisting : names = (store s).listing := by
      rw [Memory.names_ok hnames, same₁.listing]
    have same := same₁.trans same₂
    -- the update
    rcases (Write.asks_ask _).bind_write fronts h₂ with
      ⟨error, cause, rfl, rfl, hfails⟩ | ⟨existed, t₃, hupdate, h₃⟩
    · refine ⟨[], by simp, .failed error fun c => ?_⟩
      rw [fronts.documents_of_error hfails, same.documents]
    rw [Write.lead_bind, Write.lead_announce] at h₃
    cases h₃
    have proper : (Call.update collection e.id (.replace e)).Proper := trivial
    rcases Memory.exchanged_of_update (Memory.not_takesId_of_proper proper) hupdate with
      ⟨hnone, -⟩ | ⟨old', next, revision, hfound', hchanged, hexchanged⟩
    · rw [same.documents, hfound] at hnone
      cases hnone
    · rw [same.documents, hfound] at hfound'
      cases hfound'
      simp only [Memory.changed, if_true, Except.ok.injEq] at hchanged
      subst hchanged
      rw [hbefore, hlisting]
      exact ⟨_, rfl,
        .exchanged e hchecked old _ (hexchanged.of_same same) (Memory.visible_stamp _ _)⟩

theorem patch_ends {data : Value} {result : Except ManagerError Unit}
    (h : Write.lead server (patch collection id data) announced s = ((result, announced'), s')) :
    ∃ news, announced' = announced ++ news ∧
      PatchEnd (store s) (store s') collection id data result news := by
  unfold patch at h
  -- the check of the body
  rcases Write.lead_check_bind h with ⟨error, rfl, rfl, rfl⟩ | ⟨fields, hchecked, h₁⟩
  · exact ⟨[], by simp, .failed error fun _ => rfl⟩
  split at h₁
  · next hblank =>
    cases h₁
    exact ⟨[], by simp, .idle fields hchecked hblank fun _ => rfl⟩
  next hblank =>
  -- the look for the document
  rcases (Write.asks_load collection id).bind_read fronts trivial h₁ with
    ⟨error, rfl, rfl, same⟩ | ⟨found, t₁, hget, same₁, h₂⟩
  · exact ⟨[], by simp, .failed error same.documents⟩
  cases found with
  | none =>
    cases h₂
    exact ⟨[], by simp, .failed _ same₁.documents⟩
  | some before =>
    obtain ⟨old, hfound, hbefore⟩ := Memory.get_found sound.identified hget
    -- the names of the collections
    rcases (Write.asks_ask .collections).bind_read fronts trivial h₂ with
      ⟨error, rfl, rfl, same⟩ | ⟨names, t₂, hnames, same₂, h₃⟩
    · exact ⟨[], by simp, .failed error (same₁.trans same).documents⟩
    have hlisting : names = (store s).listing := by
      rw [Memory.names_ok hnames, same₁.listing]
    have same := same₁.trans same₂
    -- the update
    rcases (Write.asks_ask _).bind_write fronts h₃ with
      ⟨error, cause, rfl, rfl, hfails⟩ | ⟨existed, t₃, hupdate, h₄⟩
    · refine ⟨[], by simp, .failed error fun c => ?_⟩
      rw [fronts.documents_of_error hfails, same.documents]
    rw [Write.lead_announce] at h₄
    cases h₄
    have proper : (Call.update collection id
        (.patch (settings fields) (removals fields))).Proper := idField_not_mem_removals fields
    rcases Memory.exchanged_of_update (Memory.not_takesId_of_proper proper) hupdate with
      ⟨hnone, -⟩ | ⟨old', next, revision, hfound', hchanged, hexchanged⟩
    · rw [same.documents, hfound] at hnone
      cases hnone
    · rw [same.documents, hfound] at hfound'
      cases hfound'
      rw [hbefore, hlisting]
      exact ⟨_, rfl, .exchanged fields hchecked (by simpa using hblank) old _
        (hexchanged.of_same same) fun name => get?_stamp_patched hchanged hexchanged.id_old⟩

theorem remove_ends {result : Except ManagerError Unit}
    (h : Write.lead server (remove collection id) announced s = ((result, announced'), s')) :
    ∃ news, announced' = announced ++ news ∧
      RemoveEnd (store s) (store s') collection id result news := by
  unfold remove at h
  rcases (Write.asks_ask _).bind_write fronts h with
    ⟨error, cause, rfl, rfl, hfails⟩ | ⟨existed, t, hremove, h₁⟩
  · exact ⟨[], by simp, .failed error (fronts.documents_of_error hfails)⟩
  obtain ⟨hexisted, hrewritten⟩ := Memory.remove_ok hremove
  cases existed with
  | true =>
    cases h₁
    obtain ⟨old, hold, hid⟩ := List.any_eq_true.mp hexisted.symm
    obtain ⟨front, back, hplace⟩ := List.append_of_mem hold
    rw [Memory.hasId_iff] at hid
    rw [sound.distinct.filter_eq hplace hid] at hrewritten
    exact ⟨_, rfl, .removed front back old hid hplace hrewritten⟩
  | false =>
    cases h₁
    -- nothing was there to be deleted
    have hnone : ∀ d ∈ (store s).documents collection, (!hasId id d) = true := by
      simpa [List.any_eq_false] using hexisted.symm
    rw [List.filter_eq_self.mpr hnone] at hrewritten
    refine ⟨[], by simp, .failed _ fun other => ?_⟩
    rw [hrewritten other]
    split
    · next hother => rw [hother]
    · rfl

theorem removeAll_ends {result : Except ManagerError Unit}
    (h : Write.lead server (removeAll collection) announced s = ((result, announced'), s')) :
    ∃ news, announced' = announced ++ news ∧
      RemoveAllEnd (store s) (store s') collection result news := by
  unfold removeAll at h
  -- the search for what is there
  rcases (Write.asks_ask (.find collection [] (.fields [idField]))).bind_read fronts trivial h with
    ⟨error, rfl, rfl, same⟩ | ⟨existing, t₁, hfind, same₁, h₁⟩
  · exact ⟨[], by simp, .failed error same.documents⟩
  have hids : existing.map Entity.id = ((store s).documents collection).filterMap storedId := by
    rw [Memory.find_ok sound.identified hfind, List.map_map,
      ← Memory.map_id_entities (sound.identified collection)]
    rfl
  -- the drop
  rcases (Write.asks_ask _).bind_write fronts h₁ with
    ⟨error, cause, rfl, rfl, hfails⟩ | ⟨existed, t₂, hdrop, h₂⟩
  · refine ⟨[], by simp, .failed error fun c => ?_⟩
    rw [fronts.documents_of_error hfails, same₁.documents]
  · rw [Write.lead_announce, hids] at h₂
    cases h₂
    exact ⟨_, rfl, .emptied ((Memory.drop_rewrites hdrop).of_same same₁)⟩

omit sound in
/-- Once the collection is dropped, only a fault of the server keeps the new documents out. -/
theorem refill_ends {m : Memory} {entities : List Entity} {news : List Notification}
    {isNew : Bool} {result : Except ManagerError Bool}
    (dropped : m.Rewritten (store s) collection []) (on : (store s).offline = false)
    (fresh : firstRepeated [] (entities.map Entity.id) = none)
    (h : Write.lead server (do
      let _ ← Write.ask (.insert collection entities)
      Write.announce news
      return isNew) announced s = ((result, announced'), s')) :
    (∃ error, result = .error error ∧ announced' = announced ∧ server.Faulty store ∧
      m.Rewritten (store s') collection []) ∨
    (result = .ok isNew ∧ announced' = announced ++ news ∧ ∃ documents,
      documents.map Entity.visible = entities.map (fun e => Entity.visible e.fields) ∧
      m.Rewritten (store s') collection documents) := by
  rcases (Write.asks_ask _).bind_write fronts h with
    ⟨error, cause, rfl, rfl, hfails⟩ | ⟨_, t, hinsert, h₁⟩
  · -- the store itself would have taken the documents
    have hinsert : (Memory.answer (store s) (.insert collection entities)).1 = .ok () :=
      Memory.insert_of_distinct on dropped.self fresh
    refine .inl ⟨error, rfl, rfl, ⟨s, .insert collection entities, ?_⟩, fun other => ?_⟩
    · rw [hfails, hinsert]
      exact fun heq => nomatch heq
    · rw [fronts.documents_of_error hfails, dropped other]
  · have hrewritten := (Memory.insert_ok hinsert).2
    rw [dropped.self, List.nil_append] at hrewritten
    rw [Write.lead_bind, Write.lead_announce] at h₁
    cases h₁
    refine .inr ⟨rfl, rfl, _, ?_, dropped.trans hrewritten⟩
    rw [Memory.map_visible_stampAll, List.map_map]
    rfl

theorem replaceAll_ends {data : Value} {result : Except ManagerError Bool}
    (h : Write.lead server (replaceAll collection data) announced s
      = ((result, announced'), s')) :
    ∃ news, announced' = announced ++ news ∧
      ReplaceAllEnd (server.Faulty store) (store s) (store s') collection data result news := by
  unfold replaceAll at h
  -- the check of the body
  rcases Write.lead_check_bind h with ⟨error, rfl, rfl, rfl⟩ | ⟨entities, hchecked, h₁⟩
  · exact ⟨[], by simp, .failed error fun _ => rfl⟩
  cases entities with
  | nil =>
    have hempty : ([] : List Entity).isEmpty = true := rfl
    rw [if_pos hempty, Write.lead_bind] at h₁
    cases hended : Write.lead server (removeAll collection) announced s with
    | mk ended t =>
      obtain ⟨result', between⟩ := ended
      obtain ⟨news, rfl, hend⟩ := removeAll_ends fronts sound hended
      rw [hended] at h₁
      cases hend with
      | failed error same =>
        cases h₁
        exact ⟨[], rfl, .failed error same⟩
      | emptied rewritten =>
        cases h₁
        exact ⟨_, rfl, .emptied hchecked rewritten⟩
  | cons e rest =>
    rw [if_neg (by simp)] at h₁
    -- the search for what is there
    rcases (Write.asks_loadAll collection).bind_read fronts trivial h₁ with
      ⟨error, rfl, rfl, same⟩ | ⟨existing, t₁, hfind, same₁, h₂⟩
    · exact ⟨[], by simp, .failed error same.documents⟩
    have hexisting : existing = (store s).entities collection := by
      rw [Memory.find_ok sound.identified hfind]
      simp
    -- the names of the collections
    rcases (Write.asks_ask .collections).bind_read fronts trivial h₂ with
      ⟨error, rfl, rfl, same⟩ | ⟨names, t₂, hnames, same₂, h₃⟩
    · exact ⟨[], by simp, .failed error (same₁.trans same).documents⟩
    have hlisting : names = (store s).listing := by
      rw [Memory.names_ok hnames, same₁.listing]
    have same := same₁.trans same₂
    -- the drop
    rcases (Write.asks_ask _).bind_write fronts h₃ with
      ⟨error, cause, rfl, rfl, hfails⟩ | ⟨existed, t₃, hdrop, h₄⟩
    · refine ⟨[], by simp, .failed error fun c => ?_⟩
      rw [fronts.documents_of_error hfails, same.documents]
    have hdropped := (Memory.drop_rewrites hdrop).of_same same
    have on : (store t₃).offline = false := by
      rw [(Memory.drop_ok hdrop).2]
      exact (Memory.drop_ok hdrop).1
    -- the insertion
    rcases refill_ends fronts hdropped on (firstRepeated_of_collectionOf hchecked) h₄ with
      ⟨error, rfl, rfl, fault, rewritten⟩ | ⟨rfl, rfl, documents, shown, rewritten⟩
    · exact ⟨[], by simp, .lost error fault rewritten⟩
    · rw [hexisting, hlisting]
      exact ⟨_, rfl, .refilled (e :: rest) hchecked (by simp) documents shown rewritten⟩

end

end Manager

/-! ## Operations -/

namespace Operation

/-- How an operation ends, where `faulty` tells whether the server in front fails calls by itself.
-/
def Ends (faulty : Prop) (m m' : Memory) :
    (op : Operation) → Except ManagerError op.Result → List Notification → Prop
  | .create collection data => Manager.PutEnd m m' collection (Manager.documentOf data)
  | .replace collection id data => Manager.PutEnd m m' collection (Manager.replacementOf id data)
  | .patch collection id data => Manager.PatchEnd m m' collection id data
  | .replaceAll collection data => Manager.ReplaceAllEnd faulty m m' collection data
  | .remove collection id => Manager.RemoveEnd m m' collection id
  | .removeAll collection => Manager.RemoveAllEnd m m' collection

/-- Led with a server in front of a sound store, an operation ends in one of its ways. -/
theorem lead_ends {σ : Type} {server : Server σ} {store : σ → Memory}
    (fronts : server.Fronts store) {s s' : σ} (sound : (store s).Sound) (op : Operation)
    {announced announced' : List Notification} {result : Except ManagerError op.Result}
    (h : Write.lead server op.write announced s = ((result, announced'), s')) :
    ∃ news, announced' = announced ++ news ∧
      op.Ends (server.Faulty store) (store s) (store s') result news := by
  cases op with
  | create collection data => exact Manager.put_ends fronts sound h
  | replace collection id data => exact Manager.put_ends fronts sound h
  | patch collection id data => exact Manager.patch_ends fronts sound h
  | replaceAll collection data => exact Manager.replaceAll_ends fronts sound h
  | remove collection id => exact Manager.remove_ends fronts sound h
  | removeAll collection => exact Manager.removeAll_ends fronts sound h

end Operation

end LinkedDocs
