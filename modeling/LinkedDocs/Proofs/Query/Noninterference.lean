import LinkedDocs.Proofs.Pass.Calls
import LinkedDocs.Proofs.Store.Reads

/-!
# Hidden documents do not show

Two stores look alike to a caller (`Memory.seen`) if their collections hold, in the same order, the
same documents that the caller may see. What else they hold makes no difference to any query, be it
for the result, the error or the calls that are made:

> `observed_eq_of_seen_eq`: a query is led to the same outcome through the same calls.

The reason is that every call of a query is guarded by the permission (`Query.onlyAsks_one`), and a
guarded call is answered from the seen documents alone (`reply_of_seen`).
-/

namespace LinkedDocs

namespace Memory

/-- The caller may see this document of a collection. -/
def isSeen (p : Permission) (collection : String) (document : Fields) : Bool :=
  (storedId document).any (p.check collection)

/-- The documents of a collection that the caller may see, in order and without bookkeeping. -/
def seen (m : Memory) (p : Permission) (collection : String) : List Fields :=
  ((m.documents collection).filter (isSeen p collection)).map Entity.visible

/-- Only the collections that one of the stores has need to look alike. -/
theorem seen_eq_of_keys {m₁ m₂ : Memory} {p : Permission}
    (h : ∀ collection ∈ m₁.collections.keys ++ m₂.collections.keys,
      m₁.seen p collection = m₂.seen p collection) (collection : String) :
    m₁.seen p collection = m₂.seen p collection := by
  by_cases hmem : collection ∈ m₁.collections.keys ++ m₂.collections.keys
  · exact h collection hmem
  · obtain ⟨h₁, h₂⟩ := not_or.mp (mt List.mem_append.mpr hmem)
    rw [seen, seen, documents_eq_nil h₁, documents_eq_nil h₂]

/-- The entities of a collection that the caller may see. -/
def seenEntities (m : Memory) (p : Permission) (collection : String) : List Entity :=
  (m.entities collection).filter fun e => p.check collection e.id

/-- Dropping the documents that are not seen drops the entities that are not. -/
theorem filterMap_isSeen {documents : List Fields} (h : ∀ d ∈ documents, (storedId d).isSome)
    (p : Permission) (collection : String) :
    (documents.filter (isSeen p collection)).filterMap entityOf?
      = (documents.filterMap entityOf?).filter fun e => p.check collection e.id := by
  induction documents with
  | nil => rfl
  | cons d rest ih =>
    have hrest := ih fun d hd => h d (List.mem_cons_of_mem _ hd)
    obtain ⟨id, hid⟩ := Option.isSome_iff_exists.mp (h d (List.mem_cons_self ..))
    obtain ⟨e, he, heid⟩ := entityOf?_of_storedId hid
    have hsame : isSeen p collection d = p.check collection e.id := by
      rw [isSeen, hid, heid]
      rfl
    rw [List.filterMap_cons_some he, List.filter_cons, List.filter_cons, hsame]
    split
    · rw [List.filterMap_cons_some he, hrest]
    · exact hrest

/-- Documents that are identified are entities by their visible fields. -/
theorem map_fields_filterMap {documents : List Fields}
    (h : ∀ d ∈ documents, (storedId d).isSome) :
    (documents.filterMap entityOf?).map Entity.fields = documents.map Entity.visible := by
  induction documents with
  | nil => rfl
  | cons d rest ih =>
    obtain ⟨id, hid⟩ := Option.isSome_iff_exists.mp (h d (List.mem_cons_self ..))
    obtain ⟨e, he, hfields, -⟩ := ofStored_of_storedId hid
    have hentity : entityOf? d = some e := by
      rw [entityOf?, he]
      rfl
    rw [List.filterMap_cons_some hentity, List.map_cons, List.map_cons, hfields,
      ih fun d hd => h d (List.mem_cons_of_mem _ hd)]

theorem map_fields_seenEntities {m : Memory} (h : m.Identified) (p : Permission)
    (collection : String) :
    (m.seenEntities p collection).map Entity.fields = m.seen p collection := by
  rw [seenEntities, entities, ← filterMap_isSeen (h collection), map_fields_filterMap]
  · rfl
  · exact fun d hd => h collection d (List.mem_filter.mp hd).1

/-- What is seen as documents is seen as entities. -/
theorem seenEntities_eq {m₁ m₂ : Memory} (h₁ : m₁.Identified) (h₂ : m₂.Identified)
    {p : Permission} {collection : String} (h : m₁.seen p collection = m₂.seen p collection) :
    m₁.seenEntities p collection = m₂.seenEntities p collection := by
  rw [← map_fields_seenEntities h₁, ← map_fields_seenEntities h₂] at h
  exact (List.map_inj_right fun _ _ => Entity.ext).mp h

/-- A single document that the caller may see is found among what is seen. -/
theorem find?_seenEntities (m : Memory) {p : Permission} {collection id : String}
    (h : p.check collection id = true) :
    (m.seenEntities p collection).find? (·.id == id)
      = (m.entities collection).find? (·.id == id) := by
  rw [seenEntities, List.find?_filter]
  congr 1
  funext e
  by_cases he : e.id = id
  · simp [he, h]
  · simp [he]

/-- A search that lets through only what the caller may see is a search of what is seen. -/
theorem filter_seenEntities (m : Memory) {p : Permission} {collection : String} {filter : Filter}
    (h : ∀ e, filter.holds e = true → p.check collection e.id = true) :
    (m.seenEntities p collection).filter filter.holds
      = (m.entities collection).filter filter.holds := by
  rw [seenEntities, List.filter_filter]
  congr 1
  funext e
  cases he : filter.holds e with
  | false => rfl
  | true => exact h e he

/-- A guarded call is answered from what the caller may see. -/
theorem reply_of_seen {m₁ m₂ : Memory} (h₁ : m₁.Identified) (h₂ : m₂.Identified)
    (offline : m₁.offline = m₂.offline) {p : Permission}
    (hseen : ∀ collection, m₁.seen p collection = m₂.seen p collection) {call : Call}
    (guarded : p.Guarded call) : m₁.reply call = m₂.reply call := by
  cases hoff : m₂.offline with
  | true => rw [reply_of_offline (offline.trans hoff), reply_of_offline hoff]
  | false =>
    have on : m₁.offline = false := offline.trans hoff
    cases call with
    | get collection id projection =>
      rw [reply_get h₁ on, reply_get h₂ hoff, ← find?_seenEntities m₁ guarded,
        ← find?_seenEntities m₂ guarded, seenEntities_eq h₁ h₂ (hseen collection)]
    | find collection filter projection =>
      rw [reply_find h₁ on, reply_find h₂ hoff, ← filter_seenEntities m₁ guarded,
        ← filter_seenEntities m₂ guarded, seenEntities_eq h₁ h₂ (hseen collection)]
    | insert | update | remove | drop | collections => exact guarded.elim

/-- The result of a dialogue with the store and the calls that were made for it. -/
def observe {α : Type} (m : Memory) (d : Dialogue α) : α × List Call :=
  let (result, calls, _) := d.run (Server.recording answer) ([], m)
  (result, calls)

/-- A dialogue of guarded calls goes alike on two stores that look alike to the caller. -/
theorem observe_eq_of_seen_eq {m₁ m₂ : Memory} (h₁ : m₁.Identified) (h₂ : m₂.Identified)
    (offline : m₁.offline = m₂.offline) {p : Permission}
    (hseen : ∀ collection, m₁.seen p collection = m₂.seen p collection) {α : Type}
    {d : Dialogue α} (guarded : d.OnlyAsks p.Guarded) : m₁.observe d = m₂.observe d := by
  -- the calls made so far are the same, and neither store has changed its content
  let related : List Call × Memory → List Call × Memory → Prop := fun s t =>
    s.1 = t.1 ∧ m₁.SameContent s.2 ∧ m₂.SameContent t.2
  have step : ∀ s t c, related s t → p.Guarded c →
      (Server.recording answer s c).1 = (Server.recording answer t c).1 ∧
        related (Server.recording answer s c).2 (Server.recording answer t c).2 := by
    rintro ⟨calls, s⟩ ⟨calls', t⟩ c ⟨hcalls, hs, ht⟩ hc
    obtain ⟨hanswer₁, hs'⟩ := answer_read hs hc.isRead
    obtain ⟨hanswer₂, ht'⟩ := answer_read ht hc.isRead
    refine ⟨?_, ?_, hs', ht'⟩
    · show (answer s c).1 = (answer t c).1
      rw [hanswer₁, hanswer₂, reply_of_seen h₁ h₂ offline hseen hc]
    · show calls ++ [c] = calls' ++ [c]
      rw [show calls = calls' from hcalls]
  obtain ⟨hresult, hrelated⟩ := Dialogue.run_agree step guarded (s := ([], m₁)) (t := ([], m₂))
    ⟨rfl, SameContent.refl m₁, SameContent.refl m₂⟩
  exact Prod.ext hresult hrelated.1

/-- A store with two machines. -/
def twoMachines : Memory :=
  (empty.seed "vm" [.object [("id", .string "1")], .object [("id", .string "2")]]).2

/-- A store with the second machine and a disk. -/
def secondMachine : Memory :=
  ((empty.seed "disk" [.object [("id", .string "a")]]).2.seed "vm"
    [.object [("id", .string "2")]]).2

end Memory

namespace Query

/-- **Hidden documents do not show.** On two stores that hold the same seen documents in the same
order, every query has the same outcome and makes the same calls. -/
theorem observed_eq_of_seen_eq {m₁ m₂ : Memory} (h₁ : m₁.Identified) (h₂ : m₂.Identified)
    (offline : m₁.offline = m₂.offline) {p : Permission}
    (hseen : ∀ collection, m₁.seen p collection = m₂.seen p collection)
    (collection : String) (request : Request) :
    (∀ id, m₁.observe (one p collection id request) = m₂.observe (one p collection id request)) ∧
      m₁.observe (many p collection request) = m₂.observe (many p collection request) :=
  ⟨fun id =>
      Memory.observe_eq_of_seen_eq h₁ h₂ offline hseen (onlyAsks_one p collection id request),
    Memory.observe_eq_of_seen_eq h₁ h₂ offline hseen (onlyAsks_many p collection request)⟩

/-- The caller who may see the second machine only cannot tell whether there is a first. -/
theorem observed_eq_without_first_machine :
    Memory.twoMachines.Identified ∧ Memory.secondMachine.Identified ∧
      Memory.twoMachines.observe (many (.granted false [("vm", .ids ["2"])]) "vm" .full)
        = Memory.secondMachine.observe (many (.granted false [("vm", .ids ["2"])]) "vm" .full) := by
  have h₁ : Memory.twoMachines.Identified := by decide +kernel
  have h₂ : Memory.secondMachine.Identified := by decide +kernel
  exact ⟨h₁, h₂, (observed_eq_of_seen_eq h₁ h₂ rfl
    (Memory.seen_eq_of_keys (by decide +kernel)) "vm" .full).2⟩

end Query

end LinkedDocs
