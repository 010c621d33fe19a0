import LinkedDocs.Proofs.Manager.OneByOne

/-!
# Writing the same again

A write that stores whole documents can be repeated: when a store shows what the write is about to
store, it succeeds, announces nothing, and shows the same as before.

> `Shown`: what the operation is about to store is what the store shows.
> `shown_of_ends`: this is so after the operation has succeeded.
> `quiet_of_shown`: and as long as it is so, the operation is quiet.

The body of the request is compared with what has been through the store: ids are texts there, and
bookkeeping does not come back. Neither shows in a comparison (`isEmpty_between_visible`). That the
names of the collections may have become more since does not matter, as they only tell fields that
differ from links that differ.
-/

namespace LinkedDocs

open Memory (answer storedId hasId)

/-! ## Nothing has changed -/

/-- Between what leaves the store of a document and the document there is no change. -/
theorem Change.isEmpty_between_visible (fields : Fields) (collections : List String) :
    (between (Entity.visible fields) fields collections).isEmpty = true := by
  refine isEmpty_iff.mpr fun name hname => ?_
  rcases has_between_iff.mp hname with hchanged | ⟨hremoved, -⟩
  · obtain ⟨hshown, value, hvalue, hdiffers⟩ := mem_changedNames_iff.mp hchanged
    have hsame := (differs_iff _ _).mp hdiffers value
      (Entity.get?_visible_eq_some.mpr ⟨hshown, hvalue⟩)
    simp at hsame
  · obtain ⟨-, hgone, value, hvalue⟩ := mem_removedNames_iff.mp hremoved
    rw [(Entity.get?_visible_eq_some.mp hvalue).2] at hgone
    cases hgone

/-- A document that gives way to one that shows the same does not change what is seen. -/
theorem Memory.Exchanged.view_eq {m m' : Memory} {collection id : String} {old new : Fields}
    (h : m.Exchanged m' collection id old new)
    (same : Entity.visible new = Entity.visible old) (other : String) :
    m'.view other = m.view other := by
  obtain ⟨front, back, hdocuments, hrewritten⟩ := h.place
  rw [Memory.view, Memory.view, hrewritten other]
  split
  · next hother => rw [hother, hdocuments]; simp [same]
  · rfl

namespace Manager

variable {m m' : Memory} {collection : String}

/-- A document that is seen as it is has nothing to be announced. -/
theorem putNews_visible (collection : String) (names : List String) (e : Entity) :
    putNews collection names (some (Entity.visible e.fields)) e = [] := by
  rw [putNews, Notification.updated?, if_pos (Change.isEmpty_between_visible ..)]
  rfl

/-- Storing a document that is seen as it is announces nothing and does not change what is seen. -/
theorem PutEnd.quiet (distinct : m.Distinct) {e : Entity}
    (stored : m.lookup collection e.id = some (Entity.visible e.fields)) {isNew : Bool}
    {news : List Notification} (h : PutEnd m m' collection (.ok e) (.ok isNew) news) :
    news = [] ∧ ∀ other, m'.view other = m.view other := by
  refine ⟨by rw [(h.put distinct).1, stored, putNews_visible], fun other => ?_⟩
  cases h with
  | added e checked free new shown rewritten =>
    cases checked
    rw [Memory.lookup_eq_none_iff.mpr free] at stored
    cases stored
  | exchanged e checked old new exchanged shown =>
    cases checked
    obtain ⟨front, back, hdocuments, -⟩ := exchanged.place
    have hold : old ∈ m.documents collection := by simp [hdocuments]
    rw [distinct.lookup_of_mem hold exchanged.id_old] at stored
    exact exchanged.view_eq (shown.trans (Option.some.inj stored).symm) other

/-- In a collection that shows just these documents, each of them is seen under its id. -/
theorem lookup_of_mem_shown (sound : m.Sound) {entities : List Entity}
    (stored : m.view collection = entities.map fun e => Entity.visible e.fields) {e : Entity}
    (he : e ∈ entities) : m.lookup collection e.id = some (Entity.visible e.fields) := by
  have hmem : Entity.visible e.fields ∈ m.view collection := by
    rw [stored]
    exact List.mem_map_of_mem he
  obtain ⟨d, hd, hshown⟩ := List.mem_map.mp hmem
  have hid : storedId d = some e.id := by
    rw [Memory.storedId_of_visible_eq hshown, Memory.storedId_fields]
  rw [sound.distinct.lookup_of_mem hd hid, hshown]

/-- And no old one is missing among them. -/
theorem gone_of_shown {entities : List Entity}
    (stored : m.view collection = entities.map fun e => Entity.visible e.fields) :
    gone m collection entities = [] := by
  refine List.eq_nil_iff_forall_not_mem.mpr fun id hid => ?_
  obtain ⟨hlookup, hnot⟩ := mem_gone_iff.mp hid
  rw [Memory.lookup_of_shown stored, find?_id_eq_none hnot] at hlookup
  exact hlookup rfl

/-- Putting documents in the place of themselves announces nothing and does not change what is seen.
-/
theorem ReplaceAllEnd.quiet (sound : m.Sound) {faulty : Prop} {data : Value}
    {entities : List Entity} (valid : collectionOf data = .ok entities)
    (stored : m.view collection = entities.map fun e => Entity.visible e.fields) {isNew : Bool}
    {news : List Notification}
    (h : ReplaceAllEnd faulty m m' collection data (.ok isNew) news) :
    news = [] ∧ ∀ other, m'.view other = m.view other := by
  obtain ⟨rfl, hview, hothers⟩ := h.refilled_view sound valid
  refine ⟨?_, fun other => ?_⟩
  · have hnews : (entities.flatMap fun e =>
        putNews collection m.listing (m.lookup collection e.id) e) = [] := by
      refine List.flatMap_eq_nil_iff.mpr fun e he => ?_
      rw [lookup_of_mem_shown sound stored he, putNews_visible]
    have hperm := ofCollection_perm sound collection entities
    rw [hnews, gone_of_shown stored] at hperm
    exact hperm.eq_nil
  · by_cases hother : other = collection
    · rw [hother, hview, stored]
    · rw [Memory.view, Memory.view, hothers other hother]

end Manager

/-! ## Operations that store whole documents -/

namespace Write

variable {m m' : Memory} {α : Type} {announced announced' : List Notification}

/-- A write that starts with a call can only succeed if the store is within reach. -/
theorem Asks.online {call : Call} {w : Write call.Reply} {wrap : StoreError → ManagerError}
    (hw : Asks w wrap) {f : call.Reply → Write α} {a : α}
    (h : lead answer (w >>= f) announced m = ((.ok a, announced'), m')) : m.offline = false := by
  rw [lead_bind, hw] at h
  cases hcall : answer m call with
  | mk answered t =>
    rw [hcall] at h
    cases answered with
    | error cause => cases h
    | ok reply => exact Memory.online_of_ok hcall

end Write

namespace Operation

variable {m m' : Memory}

/-- The store shows what the operation is about to store. It is never said of operations that do not
store whole documents. -/
def Shown (m : Memory) : Operation → Prop
  | .create collection data => ∃ e, Manager.documentOf data = .ok e ∧
    m.lookup collection e.id = some (Entity.visible e.fields)
  | .replace collection id data => ∃ e, Manager.replacementOf id data = .ok e ∧
    m.lookup collection e.id = some (Entity.visible e.fields)
  | .replaceAll collection data => ∃ entities, Manager.collectionOf data = .ok entities ∧
    m.view collection = entities.map fun e => Entity.visible e.fields
  | _ => False

/-- Whether the operation stores whole documents. -/
def storesWhole : Operation → Bool
  | .create .. | .replace .. | .replaceAll .. => true
  | _ => false

/-- Operations that store whole documents begin with a look at the store. -/
theorem online_of_lead {op : Operation} (whole : op.storesWhole = true) {reply : op.Result}
    {news : List Notification}
    (h : Write.lead answer op.write [] m = ((.ok reply, news), m')) : m.offline = false := by
  have hput {collection : String} {body : Except BodyFault Entity} {isNew : Bool}
      (h : Write.lead answer (Write.check body >>= Manager.put collection) [] m
        = ((.ok isNew, news), m')) : m.offline = false := by
    rcases Write.lead_check_bind h with ⟨error, herror, -⟩ | ⟨e, -, h⟩
    · cases herror
    · exact (Write.asks_load collection e.id).online h
  cases op with
  | create collection data => exact hput h
  | replace collection id data => exact hput h
  | replaceAll collection data =>
    rcases Write.lead_check_bind h with ⟨error, herror, -⟩ | ⟨entities, -, h⟩
    · cases herror
    cases entities with
    | nil =>
      have h : Write.lead answer (Manager.removeAll collection >>= fun _ => pure false) [] m
          = ((.ok reply, news), m') := h
      rw [Write.lead_bind] at h
      cases hended : Write.lead answer (Manager.removeAll collection) [] m with
      | mk ended t =>
        obtain ⟨result, told⟩ := ended
        rw [hended] at h
        cases result with
        | error error => cases h
        | ok _ => exact (Write.asks_ask _).online hended
    | cons e rest => exact (Write.asks_loadAll collection).online h
  | patch | remove | removeAll => cases whole

/-- What has been stored is shown. -/
theorem shown_of_ends (sound : m.Sound) {op : Operation} (whole : op.storesWhole = true)
    {faulty : Prop} {reply : op.Result} {news : List Notification}
    (h : op.Ends faulty m m' (.ok reply) news) : op.Shown m' := by
  have hput {collection : String} {body : Except BodyFault Entity} {isNew : Bool}
      (h : Manager.PutEnd m m' collection body (.ok isNew) news) :
      ∃ e, body = .ok e ∧ m'.lookup collection e.id = some (Entity.visible e.fields) := by
    obtain ⟨e, rfl⟩ : ∃ e, body = .ok e := by
      cases h with
      | added e checked => exact ⟨e, checked⟩
      | exchanged e checked => exact ⟨e, checked⟩
    refine ⟨e, rfl, ?_⟩
    rw [(h.put sound.distinct).2.1, if_pos rfl]
  cases op with
  | create collection data => exact hput h
  | replace collection id data => exact hput h
  | replaceAll collection data =>
    obtain ⟨entities, checked⟩ : ∃ entities, Manager.collectionOf data = .ok entities := by
      cases h with
      | emptied checked => exact ⟨[], checked⟩
      | refilled entities checked => exact ⟨entities, checked⟩
    exact ⟨entities, checked, (Manager.ReplaceAllEnd.refilled_view sound checked h).2.1⟩
  | patch | remove | removeAll => cases whole

/-- An operation that succeeds is quiet if it is in all of its successful ways. -/
theorem quiet_of_ends (sound : m.Sound) {op : Operation} (succeeds : Write.Succeeds m op.write)
    (quiet : ∀ {reply news m'}, op.Ends (Server.Faulty answer id) m m' (.ok reply) news →
      news = [] ∧ ∀ collection, m'.view collection = m.view collection) :
    ∃ reply m', Write.lead answer op.write [] m = ((.ok reply, []), m') ∧
      ∀ collection, m'.view collection = m.view collection := by
  obtain ⟨reply, news, m', hlead, hends, -, -⟩ := ends_of_succeeds sound succeeds
  obtain ⟨rfl, hview⟩ := quiet hends
  exact ⟨reply, m', hlead, hview⟩

/-- As long as it is shown, the operation succeeds, announces nothing and leaves all that is seen as
it is. -/
theorem quiet_of_shown (sound : m.Sound) (on : m.offline = false) {op : Operation}
    (shown : op.Shown m) : ∃ reply m', Write.lead answer op.write [] m = ((.ok reply, []), m') ∧
      ∀ collection, m'.view collection = m.view collection := by
  cases op with
  | create collection data =>
    obtain ⟨e, hbody, hlookup⟩ := shown
    refine quiet_of_ends sound
      (Write.succeeds_check_bind hbody (Manager.succeeds_put sound on e)) fun h => ?_
    rw [Ends, hbody] at h
    exact h.quiet sound.distinct hlookup
  | replace collection id data =>
    obtain ⟨e, hbody, hlookup⟩ := shown
    refine quiet_of_ends sound
      (Write.succeeds_check_bind hbody (Manager.succeeds_put sound on e)) fun h => ?_
    rw [Ends, hbody] at h
    exact h.quiet sound.distinct hlookup
  | replaceAll collection data =>
    obtain ⟨entities, hbody, hview⟩ := shown
    exact quiet_of_ends sound (Manager.succeeds_replaceAll sound on hbody)
      fun h => h.quiet sound hbody hview
  | patch | remove | removeAll => cases shown

end Operation

namespace Service

variable {τ : Type}

/-- **An operation that has stored whole documents can be repeated at once: it succeeds again,
announces nothing, so that the sink is not even asked, and leaves all that is seen of every
collection as it is.** -/
theorem perform_again {m : Memory} (managed : m.Managed) (sink : Sink τ) (op : Operation)
    (whole : op.storesWhole = true) (selectors : SelectorCache) (t : τ) :
    let start : Service Memory τ := ⟨m, selectors, t⟩
    let once := start.perform answer sink op
    let again := once.2.perform answer sink op
    ∀ reply, once.1 = .ok reply →
      (∃ reply', again.1 = .ok reply') ∧
      (op.write.start.run answer once.2.store).1.2 = [] ∧ again.2.sink = once.2.sink ∧
      ∀ collection, again.2.store.view collection = once.2.store.view collection := by
  intro start once again reply hreply
  cases hlead : Write.lead answer op.write [] m with
  | mk ended m₁ =>
    obtain ⟨result, news⟩ := ended
    have honce : once = (result, ⟨m₁, selectors, (sink.announce news t).2⟩) := by
      show start.perform answer sink op = _
      rw [perform_eq, hlead]
    rw [honce] at hreply
    obtain rfl : result = .ok reply := hreply
    have sound := managed.sound
    obtain ⟨_, rfl, hends⟩ := op.lead_ends Server.fronts_answer (s := m) sound hlead
    have sound₁ : (Write.lead answer op.write [] m).2.Sound :=
      op.lead_sound Server.fronts_answer (s := m) sound
    have on₁ := Dialogue.offline_run ((op.write.run).run []) m
    rw [show ((op.write.run).run []).run answer m = _ from hlead,
      Operation.online_of_lead whole hlead] at on₁
    rw [hlead] at sound₁
    obtain ⟨reply', m₂, hlead₂, hview⟩ :=
      Operation.quiet_of_shown sound₁ on₁ (Operation.shown_of_ends sound whole hends)
    have hagain : again = (.ok reply', ⟨m₂, selectors, (sink.announce news t).2⟩) := by
      show once.2.perform answer sink op = _
      rw [honce, perform_eq, hlead₂]
      rfl
    rw [hagain, honce, Write.run_start, hlead₂]
    exact ⟨⟨reply', rfl⟩, rfl, rfl, hview⟩

/-- A list of one machine, with a number for an id and with bookkeeping of its own. -/
def numberedMachines : Value :=
  .array [.object [("id", .number (.integer 1)), ("_rev", .string "mine"),
    ("disk", .object [("vm", .number (.integer 1)), ("_id", .number (.integer 7))])]]

/-- They are stored, and stored again. -/
theorem perform_again_machine :
    let start : Service Memory Recorder := ⟨.empty, .ofCapacity 0, .empty⟩
    let once := start.perform answer Recorder.sink (.replaceAll "vm" numberedMachines)
    let again := once.2.perform answer Recorder.sink (.replaceAll "vm" numberedMachines)
    once.1 = .ok true ∧ once.2.sink.recorded = [⟨"vm", "1", .created⟩] ∧
      (∃ reply, again.1 = .ok reply) ∧ again.2.sink = once.2.sink ∧
      again.2.store.view "vm" = once.2.store.view "vm" := by
  dsimp only
  obtain ⟨hsucceeds, -, hsink, hview⟩ :=
    perform_again .empty Recorder.sink (.replaceAll "vm" numberedMachines) rfl (.ofCapacity 0)
      .empty true (by decide +kernel)
  exact ⟨by decide +kernel, by decide +kernel, hsucceeds, hsink, hview "vm"⟩

end Service

end LinkedDocs
