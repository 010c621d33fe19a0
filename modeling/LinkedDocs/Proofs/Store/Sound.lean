import LinkedDocs.Proofs.Store.Writes
import LinkedDocs.Store.Fault

/-!
# Sound stores, and servers in front of them

A store is `Sound` if every document has an id, no two documents of a collection share one, and no
collection that is there is empty. Not every call keeps it so: a patch can take an id out, and an
insertion can leave an empty collection. `Call.Proper` excludes these two.

> `Sound.answer`: a proper call leaves a sound store, whatever it is answered.

A server `Fronts` a store if it passes each call on or fails without passing it on, as it likes. The
store itself does so, and the store with one call that fails (`fronts_failingAt`). A dialogue of
proper calls led through such a server leaves a sound store (`Server.Fronts.run_sound`). It is
enough for that if the server `Relays` the calls, even if it then answers what it likes: what every
call keeps, a dialogue keeps (`Server.Relays.run`).
-/

namespace LinkedDocs

/-- An insertion of distinct ids, a patch that leaves the id, or any other call. -/
def Call.Proper : Call → Prop
  | .insert _ entities => (entities.map Entity.id).Nodup
  | .update _ _ (.patch _ unset) => idField ∉ unset
  | _ => True

theorem Call.Proper.of_isRead {call : Call} (h : call.isRead) : call.Proper := by
  cases call with
  | get | find | collections => trivial
  | insert | update | remove | drop => exact h.elim

namespace Memory

variable {m m' : Memory} {collection id : String}

/-- Every document has an id, the ids of a collection are distinct, and no collection is empty. -/
structure Sound (m : Memory) : Prop where
  identified : m.Identified
  distinct : m.Distinct
  tidy : m.Tidy

/-! ## Calls -/

/-- The call takes the id out of a document that is there: a patch takes out every field it names,
the id not excepted. -/
def TakesId (m : Memory) : Call → Prop
  | .update collection id (.patch _ unset) =>
    idField ∈ unset ∧ ∃ d ∈ m.documents collection, storedId d = some id
  | _ => False

/-- The id of what an update makes of a document. -/
theorem storedId_of_changed {document next : Fields} {change : Update}
    (hthere : document ∈ m.documents collection) (hid : storedId document = some id)
    (keeps : ¬ m.TakesId (.update collection id change))
    (h : changed document id change = .ok next) : storedId next = some id := by
  cases change with
  | replace e =>
    simp only [changed] at h
    split at h
    · next heq =>
      cases h
      rw [storedId_fields, heq]
    · cases h
  | patch set unset =>
    have hunset : idField ∉ unset := fun hmem => keeps ⟨hmem, document, hthere, hid⟩
    rw [storedId_patched h hunset, hid]

/-- An update that leaves the id and succeeds has found nothing, or exchanges a document. -/
theorem exchanged_of_update {change : Update} {existed : Bool}
    (keeps : ¬ m.TakesId (.update collection id change))
    (h : answer m (.update collection id change) = (.ok existed, m')) :
    ((m.documents collection).find? (hasId id) = none ∧ m' = m) ∨
      ∃ old next revision, (m.documents collection).find? (hasId id) = some old ∧
        changed old id change = .ok next ∧
        m.Exchanged m' collection id old (stamp revision next) := by
  rcases update_ok h with hnone | ⟨old, next, hfound, hchanged, hrewritten⟩
  · exact .inl hnone
  · obtain ⟨hid, front, back, hdocuments, hreplaced⟩ := exists_place hfound
    rw [hreplaced] at hrewritten
    refine .inr ⟨old, next, m.revision + 1, hfound, hchanged, hid, ?_, front, back, hdocuments,
      hrewritten⟩
    rw [storedId_stamp]
    exact storedId_of_changed (List.mem_of_find?_eq_some hfound) hid keeps hchanged

theorem mem_stampAll {revision : Nat} {entities : List Entity} {document : Fields}
    (h : document ∈ stampAll revision (entities.map (·.fields))) :
    ∃ e ∈ entities, ∃ r, document = stamp r e.fields := by
  induction entities generalizing revision with
  | nil => exact absurd h List.not_mem_nil
  | cons e rest ih =>
    rw [List.map_cons, stampAll, List.mem_cons] at h
    rcases h with rfl | hrest
    · exact ⟨e, List.mem_cons_self .., revision + 1, rfl⟩
    · obtain ⟨e', he', r, hr⟩ := ih hrest
      exact ⟨e', List.mem_cons_of_mem _ he', r, hr⟩

theorem mem_replaceFirst {next document : Fields} {documents : List Fields}
    (h : document ∈ replaceFirst id next documents) : document = next ∨ document ∈ documents := by
  induction documents with
  | nil => exact absurd h List.not_mem_nil
  | cons d rest ih =>
    rw [replaceFirst] at h
    split at h
    · exact (List.mem_cons.mp h).imp_right (List.mem_cons_of_mem d)
    · rcases List.mem_cons.mp h with rfl | hrest
      · exact .inr (List.mem_cons_self ..)
      · exact (ih hrest).imp_right (List.mem_cons_of_mem d)

/-- What holds of every document holds of every document after a call, if it holds of what is
inserted and of what the call makes of a document. -/
theorem forall_documents_answer {good : Fields → Prop} {call : Call}
    (h : ∀ collection, ∀ d ∈ m.documents collection, good d)
    (inserted : ∀ (e : Entity) revision, good (stamp revision e.fields))
    (updated : ∀ {collection id change old next} revision,
      call = .update collection id change → old ∈ m.documents collection → good old →
        storedId old = some id → changed old id change = .ok next → good (stamp revision next)) :
    ∀ collection, ∀ d ∈ (Memory.answer m call).2.documents collection, good d := by
  have of_rewritten : ∀ {m' : Memory} {collection documents},
      m.Rewritten m' collection documents → (∀ d ∈ documents, good d) →
        ∀ other, ∀ d ∈ m'.documents other, good d := by
    intro m' collection documents hrewritten hnew other d hd
    rw [hrewritten other] at hd
    split at hd
    · exact hnew d hd
    · exact h other d hd
  cases hended : Memory.answer m call with
  | mk result m' =>
    cases result with
    | error cause =>
      intro collection d hd
      rw [documents_of_error hended] at hd
      exact h collection d hd
    | ok reply =>
      cases call with
      | get | find | collections =>
        have same : m.SameContent m' := by
          refine sameContent_of_read _ (.refl m) ?_ hended
          trivial
        intro collection d hd
        rw [same.documents] at hd
        exact h collection d hd
      | insert collection entities =>
        refine of_rewritten (insert_ok hended).2 fun d hd => ?_
        rcases List.mem_append.mp hd with hold | hnew
        · exact h collection d hold
        · obtain ⟨e, -, r, rfl⟩ := mem_stampAll hnew
          exact inserted e r
      | update collection id change =>
        rcases update_ok hended with ⟨-, rfl⟩ | ⟨old, next, hfound, hchanged, hrewritten⟩
        · exact h
        · have hthere := List.mem_of_find?_eq_some hfound
          refine of_rewritten hrewritten fun d hd => ?_
          rcases mem_replaceFirst hd with rfl | hold
          · exact updated _ rfl hthere (h collection old hthere)
              (hasId_iff.mp (List.find?_some hfound)) hchanged
          · exact h collection d hold
      | remove collection id =>
        exact of_rewritten (remove_ok hended).2 fun d hd =>
          h collection d (List.mem_of_mem_filter hd)
      | drop collection =>
        exact of_rewritten (drop_rewrites hended) fun d hd => absurd hd List.not_mem_nil

/-- Only a call that takes an id out leaves a document without one. -/
theorem Identified.answer (h : m.Identified) {call : Call} (keeps : ¬ m.TakesId call) :
    (Memory.answer m call).2.Identified := by
  refine forall_documents_answer h (fun e revision => ?_) ?_
  · rw [storedId_stamp, storedId_fields]
    rfl
  · intro collection id change old next revision hcall hthere _ hid hchanged
    subst hcall
    rw [storedId_stamp, storedId_of_changed hthere hid keeps hchanged]
    rfl

theorem not_takesId_of_proper {call : Call} (proper : call.Proper) : ¬ m.TakesId call := by
  intro htakes
  cases call with
  | update collection id change =>
    cases change with
    | patch set unset => exact proper htakes.1
    | replace e => exact htakes
  | get | find | insert | remove | drop | collections => exact htakes

theorem not_leavesEmpty_of_proper {call : Call} (proper : call.Proper) : ¬ m.LeavesEmpty call := by
  intro hleaves
  cases call with
  | insert collection entities => exact hleaves.2.2 proper
  | get | find | update | remove | drop | collections => exact hleaves

/-- A proper call leaves a sound store. -/
theorem Sound.answer (h : m.Sound) {call : Call} (proper : call.Proper) :
    (Memory.answer m call).2.Sound :=
  ⟨h.identified.answer (not_takesId_of_proper proper), h.distinct.answer call,
    h.tidy.answer (not_leavesEmpty_of_proper proper)⟩

theorem sound_empty : empty.Sound where
  identified := fun _ _ hd => absurd hd List.not_mem_nil
  distinct := fun _ => List.nodup_nil
  tidy := fun collection hempty => by cases hempty

/-! ## Ids in a sound store -/

/-- A collection with a document at some place has no other document with its id. -/
theorem Distinct.storedId_ne (h : m.Distinct) {front back : List Fields} {document : Fields}
    (hdocuments : m.documents collection = front ++ document :: back)
    (hid : storedId document = some id) : ∀ d ∈ front ++ back, storedId d ≠ some id := by
  have hnodup := h collection
  rw [hdocuments, List.filterMap_append, List.filterMap_cons_some hid, List.nodup_middle,
    ← List.filterMap_append] at hnodup
  intro d hd hdid
  exact (List.nodup_cons.mp hnodup).1 (List.mem_filterMap.mpr ⟨d, hd, hdid⟩)

/-- A document with another id is one of the others. -/
theorem mem_of_storedId_ne {front back : List Fields} {document document' : Fields}
    (hdocuments : m.documents collection = front ++ document :: back)
    (hid : storedId document = some id) (hd' : document' ∈ m.documents collection)
    (hne : storedId document' ≠ some id) : document' ∈ front ++ back := by
  rw [hdocuments] at hd'
  simp only [List.mem_append, List.mem_cons] at hd' ⊢
  rcases hd' with hfront | rfl | hback
  · exact .inl hfront
  · exact absurd hid hne
  · exact .inr hback

/-- Documents of a collection with the same id are the same. -/
theorem Distinct.eq_of_storedId_eq (h : m.Distinct) {document document' : Fields}
    (hd : document ∈ m.documents collection) (hd' : document' ∈ m.documents collection)
    (hid : storedId document = some id) (hid' : storedId document' = some id) :
    document = document' := by
  obtain ⟨front, back, hdocuments⟩ := List.append_of_mem hd
  by_contra hne
  have hother : document' ∈ front ++ back := by
    rw [hdocuments] at hd'
    simp only [List.mem_append, List.mem_cons] at hd' ⊢
    rcases hd' with hfront | rfl | hback
    · exact .inl hfront
    · exact absurd rfl hne
    · exact .inr hback
  exact h.storedId_ne hdocuments hid document' hother hid'

/-- Deleting the documents with an id deletes the one that has it. -/
theorem Distinct.filter_eq (h : m.Distinct) {front back : List Fields} {document : Fields}
    (hdocuments : m.documents collection = front ++ document :: back)
    (hid : storedId document = some id) :
    (m.documents collection).filter (fun d => !hasId id d) = front ++ back := by
  have hothers := h.storedId_ne hdocuments hid
  have hkeep : ∀ d ∈ front ++ back, (!hasId id d) = true := by
    intro d hd
    rw [Bool.not_eq_true', ← Bool.not_eq_true, hasId_iff]
    exact hothers d hd
  rw [hdocuments, List.filter_append, List.filter_cons_of_neg (by simp [hasId_iff.mpr hid]),
    ← List.filter_append]
  exact List.filter_eq_self.mpr hkeep

end Memory

/-! ## Servers in front of a store -/

/-- A server that passes every call on to a store in memory, or fails without passing it on. The
store behind it is a part of its state. -/
def Server.Fronts {σ : Type} (server : Server σ) (store : σ → Memory) : Prop :=
  ∀ s call,
    ((∃ cause, (server s call).1 = .error cause) ∧ store (server s call).2 = store s) ∨
    ((server s call).1 = (Memory.answer (store s) call).1 ∧
      store (server s call).2 = (Memory.answer (store s) call).2)

/-- Each call leaves the store behind the server as it is, or as the call leaves it; how it is
answered is left open. -/
def Server.Relays {σ : Type} (server : Server σ) (store : σ → Memory) : Prop :=
  ∀ s call, store (server s call).2 = store s ∨
    store (server s call).2 = (Memory.answer (store s) call).2

/-- The server answers some call otherwise than the store in its place would. -/
def Server.Faulty {σ : Type} (server : Server σ) (store : σ → Memory) : Prop :=
  ∃ s call, (server s call).1 ≠ (Memory.answer (store s) call).1

namespace Server

theorem not_faulty_answer : ¬ Server.Faulty Memory.answer id := fun ⟨_, _, hne⟩ => hne rfl

theorem fronts_answer : Server.Fronts Memory.answer id := fun _ _ => .inr ⟨rfl, rfl⟩

theorem fronts_failingAt (n : Nat) (fault : StoreError) :
    (Memory.answer.failingAt n fault).Fronts Prod.snd := by
  intro s call
  obtain ⟨calls, m⟩ := s
  rw [failingAt_eq]
  split
  · exact .inl ⟨⟨fault, rfl⟩, rfl⟩
  · exact .inr ⟨rfl, rfl⟩

/-- What the store keeps at each call that a dialogue can come to, it keeps through the dialogue,
whatever the calls are answered. -/
theorem Relays.run {α σ : Type} {server : Server σ} {store : σ → Memory}
    (relays : server.Relays store) {asked : Call → Prop} {good : Memory → Prop}
    (keeps : ∀ {m call}, asked call → good m → good (Memory.answer m call).2)
    {d : Dialogue α} (hd : d.OnlyAsks asked) {s : σ} (hs : good (store s)) :
    good (store (d.run server s).2) := by
  induction d generalizing s with
  | done => exact hs
  | ask call next ih =>
    refine ih _ (hd.2 _) ?_
    rcases relays s call with hleft | hcarried
    · rwa [hleft]
    · rw [hcarried]
      exact keeps hd.1 hs

namespace Fronts

variable {σ : Type} {server : Server σ} {store : σ → Memory} {s s' : σ}

/-- A call that succeeds was answered by the store. -/
theorem ok (h : server.Fronts store) {call : Call} {reply : call.Reply}
    (hs : server s call = (.ok reply, s')) :
    Memory.answer (store s) call = (.ok reply, store s') := by
  have hcall := h s call
  rw [hs] at hcall
  rcases hcall with ⟨⟨cause, hfails⟩, -⟩ | ⟨hanswer, hstore⟩
  · cases hfails
  · exact Prod.ext hanswer.symm hstore.symm

/-- A call that fails has not reached the store, or fails there. -/
theorem error (h : server.Fronts store) {call : Call} {cause : StoreError}
    (hs : server s call = (.error cause, s')) :
    store s' = store s ∨ Memory.answer (store s) call = (.error cause, store s') := by
  have hcall := h s call
  rw [hs] at hcall
  rcases hcall with ⟨-, hstore⟩ | ⟨hanswer, hstore⟩
  · exact .inl hstore
  · exact .inr (Prod.ext hanswer.symm hstore.symm)

/-- A call that fails leaves the documents. -/
theorem documents_of_error (h : server.Fronts store) {call : Call} {cause : StoreError}
    (hs : server s call = (.error cause, s')) (collection : String) :
    (store s').documents collection = (store s).documents collection := by
  rcases h.error hs with hstore | hanswer
  · rw [hstore]
  · exact Memory.documents_of_error hanswer collection

/-- A read leaves the content, whether it succeeds or not. -/
theorem sameContent (h : server.Fronts store) {call : Call} (read : call.isRead) :
    (store s).SameContent (store (server s call).2) := by
  rcases h s call with ⟨-, hstore⟩ | ⟨-, hstore⟩
  · rw [hstore]
    exact .refl _
  · rw [hstore]
    exact (Memory.answer_read (.refl _) read).2

theorem relays (h : server.Fronts store) : server.Relays store :=
  fun s call => (h s call).imp And.right And.right

/-- A dialogue of proper calls leaves a sound store. -/
theorem run_sound (h : server.Fronts store) {α : Type} {d : Dialogue α}
    (hd : d.OnlyAsks Call.Proper) (hs : (store s).Sound) : (store (d.run server s).2).Sound :=
  h.relays.run (fun proper sound => sound.answer proper) hd hs

end Fronts

end Server

end LinkedDocs
