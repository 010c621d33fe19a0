import LinkedDocs.Proofs.Manager.Write
import LinkedDocs.Proofs.Store.Reads

/-!
# Bulk writes that fail

Replacing a collection makes up to four calls: it searches for what is there, asks for the names of
the collections, drops the collection and inserts the new documents. All that it is given is checked
before the first call. There is no way back after the drop:

> `replaceAll_of_error`: a bulk write that fails has announced nothing, and all documents are as
> they were, unless it is the insertion, the fourth call, that has failed; then the collection is
> gone.

An insertion into a collection that has just been dropped does not fail by itself
(`insert_of_distinct`): there are no documents whose ids could be taken, and those of the new ones
have been checked to be distinct.
-/

namespace LinkedDocs

namespace Memory

/-- The two states hold the same documents in the same collections. -/
def SameDocuments (m m' : Memory) : Prop :=
  ∀ collection, m'.documents collection = m.documents collection

theorem sameContent_of_collections {m m₁ m₂ : Memory} {result : Except StoreError (List String)}
    (h : m.SameContent m₁) (ha : answer m₁ .collections = (result, m₂)) : m.SameContent m₂ :=
  sameContent_of_read .collections h trivial ha

theorem sameContent_of_find {m m₁ m₂ : Memory} {collection : String} {filter : Filter}
    {p : Projection} {result : Except StoreError (List Entity)} (h : m.SameContent m₁)
    (ha : answer m₁ (.find collection filter p) = (result, m₂)) : m.SameContent m₂ :=
  sameContent_of_read (.find collection filter p) h trivial ha

/-- The store without a collection. -/
def without (m : Memory) (collection : String) : Memory :=
  { m with collections := m.collections.erase collection }

/-- A collection that cannot be dropped stays. -/
theorem drop_error {m m' : Memory} {collection : String} {cause : StoreError}
    (h : m.drop collection = (.error cause, m')) : m' = m := by
  unfold drop at h
  split at h <;> cases h
  rfl

theorem drop_ok {m m' : Memory} {collection : String} {existed : Bool}
    (h : m.drop collection = (.ok existed, m')) :
    m.offline = false ∧ m' = m.without collection := by
  unfold drop at h
  split at h
  · cases h
  · next on =>
    cases h
    exact ⟨by simpa using on, rfl⟩

theorem documents_without (m : Memory) (collection other : String) :
    (m.without collection).documents other
      = if other = collection then [] else m.documents other := by
  simp only [documents, without, Dict.erase, Dict.get?_filter]
  by_cases h : other = collection
  · cases m.collections.get? other <;> simp [h, Option.filter]
  · cases m.collections.get? other <;> simp [h, Option.filter]

/-- Looking for taken ids among the new ones alone is looking for a repeated one. -/
theorem firstTaken_eq_firstRepeated (entities : List Entity) {taken seen : List String}
    (h : ∀ id, id ∈ taken ↔ id ∈ seen) :
    firstTaken taken entities = Manager.firstRepeated seen (entities.map Entity.id) := by
  induction entities generalizing taken seen with
  | nil => rfl
  | cons e rest ih =>
    have hcontains : taken.contains e.id = seen.contains e.id := by
      rw [Bool.eq_iff_iff, List.contains_iff_mem, List.contains_iff_mem, h]
    rw [firstTaken, List.map_cons, Manager.firstRepeated, hcontains]
    split
    · rfl
    · refine ih fun id => ?_
      rw [List.mem_append, List.mem_singleton, List.mem_cons, h]
      exact or_comm

/-- Documents with distinct ids can be put into an empty collection. -/
theorem insert_of_distinct {m : Memory} {collection : String} {entities : List Entity}
    (on : m.offline = false) (hempty : m.documents collection = [])
    (distinct : Manager.firstRepeated [] (entities.map Entity.id) = none) :
    (m.insert collection entities).1 = .ok () := by
  have hfree : firstTaken ((m.documents collection).filterMap storedId) entities = none := by
    rw [hempty, List.filterMap_nil, firstTaken_eq_firstRepeated entities fun _ => Iff.rfl, distinct]
  unfold insert
  rw [if_neg (by simp [on])]
  simp only [hfree]

end Memory

namespace Manager

open Memory (answer)

/-- The ids in a body that passes the check are distinct. -/
theorem firstRepeated_of_collectionOf {data : Value} {entities : List Entity}
    (h : collectionOf data = .ok entities) :
    firstRepeated [] (entities.map Entity.id) = none := by
  unfold collectionOf at h
  cases hitems : itemsOf data with
  | error fault => simp [hitems, bind, Except.bind] at h
  | ok items =>
    cases hdocuments : documentsOf items with
    | error fault => simp [hitems, hdocuments, bind, Except.bind] at h
    | ok found =>
      cases hrepeated : firstRepeated [] (found.map Entity.id) with
      | some id => simp [hitems, hdocuments, hrepeated, bind, Except.bind] at h
      | none =>
        obtain rfl : found = entities := by
          simpa [hitems, hdocuments, hrepeated, bind, Except.bind] using h
        exact hrepeated

variable {m m' : Memory} {n calls calls' : Nat} {fault : StoreError} {collection : String}
  {error : ManagerError} {announced announced' : List Notification}

/-- Deleting a collection fails before anything is done. -/
theorem removeAll_of_error
    (h : Write.lead (answer.failingAt n fault) (removeAll collection) announced (calls, m)
      = ((.error error, announced'), (calls', m'))) :
    announced' = announced ∧ m.SameContent m' := by
  unfold removeAll at h
  rcases Write.lead_bind_error h with hfails | ⟨existing, _, ⟨k, m₁⟩, hfound, hrest⟩
  · obtain ⟨rfl, cause, hfind, -⟩ := Write.lead_ask_error hfails
    rcases Server.failingAt_error hfind with ⟨-, -, rfl⟩ | hbehind
    · exact ⟨rfl, .refl m'⟩
    · exact ⟨rfl, Memory.sameContent_of_find (.refl m) hbehind⟩
  obtain ⟨rfl, hfind⟩ := Write.lead_ask_ok hfound
  have hm₁ : m.SameContent m₁ :=
    Memory.sameContent_of_find (.refl m) (Server.failingAt_ok hfind).2
  rcases Write.lead_bind_error hrest with hfails | ⟨existed, _, ⟨k', m₂⟩, -, hannounce⟩
  · obtain ⟨rfl, cause, hdrop, -⟩ := Write.lead_ask_error hfails
    rcases Server.failingAt_error hdrop with ⟨-, -, rfl⟩ | hbehind
    · exact ⟨rfl, hm₁⟩
    · rw [Memory.drop_error hbehind]
      exact ⟨rfl, hm₁⟩
  · cases hannounce

/-- **A bulk write that fails.** It has announced nothing. All documents are as they were, unless
the call that failed is the insertion, which follows the drop; then the collection is gone. -/
theorem replaceAll_of_error {data : Value}
    (h : (replaceAll collection data).start.run (answer.failingAt n fault) (0, m)
      = ((.error error, announced), (calls, m'))) :
    announced = [] ∧
      (m.SameDocuments m' ∨
        (n = 4 ∧ error = .store fault ∧ (∃ e rest, collectionOf data = .ok (e :: rest)) ∧
          ∀ other, m'.documents other = if other = collection then [] else m.documents other)) := by
  rw [Write.run_start] at h
  unfold replaceAll at h
  rcases Write.lead_bind_error h with hfails | ⟨entities, _, ⟨k, m₁⟩, hvalid, hrest⟩
  · obtain ⟨rfl, hsame⟩ := Write.lead_check_error hfails
    cases hsame
    exact ⟨rfl, .inl fun _ => rfl⟩
  obtain ⟨rfl, hsame, hchecked⟩ := Write.lead_check_ok hvalid
  cases hsame
  cases entities with
  | nil =>
    rcases Write.lead_bind_error hrest with hfails | ⟨_, _, _, -, hpure⟩
    · obtain ⟨hannounced, hm'⟩ := removeAll_of_error hfails
      exact ⟨hannounced, .inl hm'.documents⟩
    · cases hpure
  | cons e rest =>
    -- the search
    rcases Write.lead_bind_error hrest with hfails | ⟨existing, _, ⟨k₁, m₁⟩, hloaded, hrest₁⟩
    · obtain ⟨rfl, cause, hfind, -⟩ := Write.lead_loadAll_error hfails
      rcases Server.failingAt_error hfind with ⟨-, -, rfl⟩ | hbehind
      · exact ⟨rfl, .inl fun _ => rfl⟩
      · exact ⟨rfl, .inl (Memory.sameContent_of_find (.refl m) hbehind).documents⟩
    obtain ⟨rfl, hfind⟩ := Write.lead_loadAll_ok hloaded
    obtain ⟨rfl, hbehind⟩ := Server.failingAt_ok hfind
    have hm₁ := Memory.sameContent_of_find (.refl m) hbehind
    -- the names of the collections
    rcases Write.lead_bind_error hrest₁ with hfails | ⟨names, _, ⟨k₂, m₂⟩, hnamed, hrest₂⟩
    · obtain ⟨rfl, cause, hnames, -⟩ := Write.lead_ask_error hfails
      rcases Server.failingAt_error hnames with ⟨-, -, rfl⟩ | hbehind
      · exact ⟨rfl, .inl hm₁.documents⟩
      · exact ⟨rfl, .inl (Memory.sameContent_of_collections hm₁ hbehind).documents⟩
    obtain ⟨rfl, hnames⟩ := Write.lead_ask_ok hnamed
    obtain ⟨rfl, hbehind⟩ := Server.failingAt_ok hnames
    have hm₂ := Memory.sameContent_of_collections hm₁ hbehind
    -- the drop
    rcases Write.lead_bind_error hrest₂ with hfails | ⟨existed, _, ⟨k₃, m₃⟩, hdropped, hrest₃⟩
    · obtain ⟨rfl, cause, hdrop, -⟩ := Write.lead_ask_error hfails
      rcases Server.failingAt_error hdrop with ⟨-, -, rfl⟩ | hbehind
      · exact ⟨rfl, .inl hm₂.documents⟩
      · rw [Memory.drop_error hbehind]
        exact ⟨rfl, .inl hm₂.documents⟩
    obtain ⟨rfl, hdrop⟩ := Write.lead_ask_ok hdropped
    obtain ⟨rfl, hbehind⟩ := Server.failingAt_ok hdrop
    obtain ⟨on, rfl⟩ := Memory.drop_ok hbehind
    have hm₃ : ∀ other, (m₂.without collection).documents other
        = if other = collection then [] else m.documents other := fun other => by
      rw [Memory.documents_without, hm₂.documents]
    -- the insertion, which fails only if it is made to
    rcases Write.lead_bind_error hrest₃ with hfails | ⟨_, _, _, -, hannounce⟩
    · obtain ⟨rfl, cause, hinsert, rfl⟩ := Write.lead_ask_error hfails
      rcases Server.failingAt_error hinsert with ⟨hn, rfl, rfl⟩ | hbehind
      · exact ⟨rfl, .inr ⟨hn.symm, rfl, ⟨e, rest, hchecked⟩, hm₃⟩⟩
      · have hempty : (m₂.without collection).documents collection = [] :=
          (hm₃ collection).trans (if_pos rfl)
        have hok : ((m₂.without collection).insert collection (e :: rest)).1 = .ok () :=
          Memory.insert_of_distinct on hempty (firstRepeated_of_collectionOf hchecked)
        rw [show (m₂.without collection).insert collection (e :: rest) = (.error cause, m')
          from hbehind] at hok
        cases hok
    · cases hannounce

/-- A store with one machine. -/
def oneMachine : Memory := (Memory.empty.seed "vm" [.object [("id", .string "1")]]).2

/-- A failure of the store that is not its own. -/
def injected : StoreError := .unavailable "injected"

/-- A machine is to be replaced by another. If the drop fails, it is still there. -/
theorem replaceAll_of_error_at_drop :
    let ended := (replaceAll "vm" (.array [.object [("id", .string "2")]])).start.run
      (answer.failingAt 3 injected) (0, oneMachine)
    ended.1 = (.error (.store injected), []) ∧ oneMachine.SameDocuments ended.2.2 := by
  intro ended
  have hfails : ended.1 = (.error (.store injected), []) := by decide +kernel
  have hended : ended = ((.error (.store injected), []), (ended.2.1, ended.2.2)) :=
    Prod.ext hfails rfl
  exact ⟨hfails, (replaceAll_of_error hended).2.resolve_right fun late => absurd late.1 (by decide)⟩

/-- A machine is to be replaced by another. If the insertion fails, it is lost. -/
theorem replaceAll_loses_collection :
    let ended := (replaceAll "vm" (.array [.object [("id", .string "2")]])).start.run
      (answer.failingAt 4 injected) (0, oneMachine)
    ended.1.1 = .error (.store injected) ∧ ¬ oneMachine.SameDocuments ended.2.2 := by
  intro ended
  refine ⟨by decide +kernel, fun hsame => ?_⟩
  have hlost : ended.2.2.documents "vm" = [] := by decide +kernel
  have hthere : oneMachine.documents "vm" ≠ [] := by decide +kernel
  exact hthere ((hsame "vm").symm.trans hlost)

end Manager

end LinkedDocs
