import LinkedDocs.Proofs.Store.Dialogue
import LinkedDocs.Store.Memory

/-!
# What reads of a store in memory answer

If every document of a store has an id in string form (`Memory.Identified`), its collections are
lists of entities (`Memory.entities`), and a read is a plain look into such a list:

> `reply_get`: a single document is the first entity with the id.
> `reply_find`: a search gives the entities that pass the filter, in order.

Both come restricted to the fields that are asked for. Reads change nothing but the counts, so a
dialogue of reads can be led with the answers of the store as it is at the start (`run_eq_eval`).
-/

namespace LinkedDocs

/-- The entity with only the fields that a projection keeps. -/
def Entity.restrict (p : Projection) (e : Entity) : Entity :=
  ⟨p.apply e.fields, e.id, by rw [Projection.get?_apply, Projection.includes_id]; exact e.id_eq⟩

namespace Entity

@[simp] theorem id_restrict (p : Projection) (e : Entity) : (e.restrict p).id = e.id := rfl

theorem get?_restrict (p : Projection) (e : Entity) (field : String) :
    (e.restrict p).get? field = if p.includes field then e.get? field else none :=
  Projection.get?_apply p e.fields field

theorem get?_restrict_of_includes {p : Projection} {field : String} (h : p.includes field = true)
    (e : Entity) : (e.restrict p).get? field = e.get? field := by
  rw [get?_restrict, if_pos h]

@[simp] theorem restrict_all (e : Entity) : e.restrict .all = e :=
  ext (Projection.apply_all e.fields)

theorem link_restrict_of_includes {p : Projection} {target : String}
    (h : p.includes target = true) (e : Entity) : (e.restrict p).link target = e.link target := by
  rw [link, link, get?_restrict_of_includes h]

end Entity

namespace Memory

/-- Every document has an id in string form. -/
def Identified (m : Memory) : Prop :=
  ∀ collection, ∀ document ∈ m.documents collection, (storedId document).isSome

theorem documents_of_mem {m : Memory} {collection : String} {documents : List Fields}
    (h : (collection, documents) ∈ m.collections.entries) : m.documents collection = documents := by
  rw [Memory.documents, m.collections.get?_of_mem h]
  rfl

/-- A collection that is not there has no documents. -/
theorem documents_eq_nil {m : Memory} {collection : String} (h : collection ∉ m.collections.keys) :
    m.documents collection = [] := by
  rw [documents, (m.collections.get?_eq_none_iff collection).mpr h]
  rfl

/-- Only the collections that are there have to be looked at. -/
theorem identified_iff (m : Memory) :
    m.Identified ↔
      ∀ pair ∈ m.collections.entries, ∀ document ∈ pair.2, (storedId document).isSome := by
  constructor
  · intro h pair hpair document hd
    refine h pair.1 document ?_
    rwa [documents_of_mem hpair]
  · intro h collection document hd
    cases hfound : m.collections.get? collection with
    | none => simp [documents, hfound] at hd
    | some documents =>
      rw [Memory.documents, hfound] at hd
      exact h _ (Dict.mem_of_get? hfound) document hd

instance (m : Memory) : Decidable m.Identified := decidable_of_iff _ m.identified_iff.symm

/-- The entity that a stored document makes, whole but for the bookkeeping. -/
def entityOf? (document : Fields) : Option Entity := (Entity.ofStored document).toOption

/-- The entities of a collection, in the order of the store. -/
def entities (m : Memory) (collection : String) : List Entity :=
  (m.documents collection).filterMap entityOf?

/-- The answer to a call in the state as it is. -/
def reply (m : Memory) (call : Call) : call.Answer := (answer m call).1

/-- The two states hold the same documents and are both within reach or both not. -/
def SameContent (m m' : Memory) : Prop :=
  m'.collections = m.collections ∧ m'.offline = m.offline

theorem storedId_eq_some {document : Fields} {id : String} :
    storedId document = some id ↔ document.get? idField = some (.string id) := by
  unfold storedId
  split
  · next h => simp [h]
  · next h =>
    constructor
    · intro he
      simp at he
    · exact fun he => absurd he (h id)

/-- A document with an id in string form is an entity, by the id and the fields it has. -/
theorem ofStored_of_storedId {document : Fields} {id : String} (h : storedId document = some id) :
    ∃ e, Entity.ofStored document = .ok e ∧ e.fields = Entity.visible document ∧ e.id = id := by
  have hid : (Entity.visible document).get? idField = some (.string id) := by
    rw [Entity.get?_visible, storedId_eq_some.mp h]
    rfl
  exact ⟨_, Entity.ofFields_eq_ok hid, rfl, rfl⟩

/-- Reading some fields of a document is reading all and dropping the others. -/
theorem load_of_storedId {document : Fields} {id : String} (h : storedId document = some id)
    (p : Projection) :
    ∃ e, entityOf? document = some e ∧ load document p = .ok (e.restrict p) ∧ e.id = id := by
  obtain ⟨e, he, hfields, hid⟩ := ofStored_of_storedId h
  refine ⟨e, by rw [entityOf?, he]; rfl, ?_, hid⟩
  have hcomm : Entity.visible (p.apply document) = p.apply (Entity.visible document) :=
    Dict.filter_comm document _ _
  have hrestrict : (e.restrict p).fields.get? idField = some (.string id) := by
    rw [← hid]
    exact (e.restrict p).id_eq
  have hshown : (Entity.visible (p.apply document)).get? idField = some (.string id) := by
    rw [hcomm, ← hfields]
    exact hrestrict
  rw [load, Entity.ofStored, Entity.ofFields_eq_ok hshown]
  refine congrArg Except.ok (Entity.ext ?_)
  show Entity.visible (p.apply document) = p.apply e.fields
  rw [hcomm, hfields]

theorem entityOf?_of_storedId {document : Fields} {id : String} (h : storedId document = some id) :
    ∃ e, entityOf? document = some e ∧ e.id = id := by
  obtain ⟨e, he, -, hid⟩ := load_of_storedId h .all
  exact ⟨e, he, hid⟩

/-- Where every document is identified, finding by the stored id is finding by the entity's. -/
theorem find?_hasId {documents : List Fields} (h : ∀ d ∈ documents, (storedId d).isSome)
    (id : String) :
    (documents.find? (hasId id)).bind entityOf?
      = (documents.filterMap entityOf?).find? (·.id == id) := by
  induction documents with
  | nil => rfl
  | cons d rest ih =>
    obtain ⟨own, hown⟩ := Option.isSome_iff_exists.mp (h d (List.mem_cons_self ..))
    obtain ⟨e, he, hid⟩ := entityOf?_of_storedId hown
    have hsame : hasId id d = (e.id == id) := by
      rw [hasId, hown, hid]
      rfl
    rw [List.filterMap_cons_some he, List.find?_cons, List.find?_cons, hsame]
    cases e.id == id with
    | true => exact he
    | false => exact ih fun d hd => h d (List.mem_cons_of_mem _ hd)

/-- A search gives the entities that pass, restricted to what is asked for. -/
theorem select_eq {documents : List Fields} (h : ∀ d ∈ documents, (storedId d).isSome)
    (filter : Filter) (p : Projection) :
    select filter p documents
      = .ok (((documents.filterMap entityOf?).filter filter.holds).map (·.restrict p)) := by
  induction documents with
  | nil => rfl
  | cons d rest ih =>
    obtain ⟨own, hown⟩ := Option.isSome_iff_exists.mp (h d (List.mem_cons_self ..))
    obtain ⟨e, he, hall, -⟩ := load_of_storedId hown .all
    obtain ⟨e', he', hp, -⟩ := load_of_storedId hown p
    obtain rfl : e = e' := Option.some.inj (he.symm.trans he')
    have hrest := ih fun d hd => h d (List.mem_cons_of_mem _ hd)
    rw [List.filterMap_cons_some he, select, hall, hp, hrest]
    by_cases hf : filter.holds e = true
    · simp [hf, bind, Except.bind, pure, Except.pure]
    · simp [hf, bind, Except.bind]

theorem reply_get {m : Memory} (h : m.Identified) (on : m.offline = false)
    (collection id : String) (p : Projection) :
    m.reply (.get collection id p)
      = .ok (((m.entities collection).find? (·.id == id)).map (·.restrict p)) := by
  show (m.get collection id p).1 = _
  rw [entities, ← find?_hasId (h collection), get, if_neg (by simp [on])]
  cases hd : (m.documents collection).find? (hasId id) with
  | none => rfl
  | some d =>
    have hmem := List.mem_of_find?_eq_some hd
    obtain ⟨own, hown⟩ := Option.isSome_iff_exists.mp (h collection d hmem)
    obtain ⟨e, he, hp, -⟩ := load_of_storedId hown p
    simp only [hp, Except.map, Option.bind_some, he]
    rfl

theorem reply_find {m : Memory} (h : m.Identified) (on : m.offline = false)
    (collection : String) (filter : Filter) (p : Projection) :
    m.reply (.find collection filter p)
      = .ok (((m.entities collection).filter filter.holds).map (·.restrict p)) := by
  show (m.find collection filter p).1 = _
  rw [find, if_neg (by simp [on])]
  exact select_eq (h collection) filter p

/-- A store that is switched off answers no call. -/
theorem answer_of_offline {m : Memory} (off : m.offline = true) (call : Call) :
    answer m call = (.error unreachable, m) := by
  cases call <;> simp only [answer, get, find, insert, update, remove, drop, names, if_pos off]

theorem reply_of_offline {m : Memory} (off : m.offline = true) (call : Call) :
    m.reply call = .error unreachable := by rw [reply, answer_of_offline off]

theorem SameContent.refl (m : Memory) : m.SameContent m := ⟨rfl, rfl⟩

theorem SameContent.documents {m m' : Memory} (h : m.SameContent m') (collection : String) :
    m'.documents collection = m.documents collection := by
  rw [Memory.documents, Memory.documents, h.1]

/-- A read is answered from the content, and leaves it. -/
theorem answer_read {m m' : Memory} {call : Call} (h : m.SameContent m') (read : call.isRead) :
    (answer m' call).1 = m.reply call ∧ m.SameContent (answer m' call).2 := by
  obtain ⟨hcollections, hoffline⟩ := h
  have hdocuments := SameContent.documents ⟨hcollections, hoffline⟩
  by_cases off : m.offline = true
  · rw [answer_of_offline (hoffline.trans off), reply_of_offline off]
    exact ⟨rfl, hcollections, hoffline⟩
  · have off' : ¬ m'.offline = true := by rwa [hoffline]
    cases call with
    | get collection id p =>
      simp only [answer, reply, get, if_neg off, if_neg off', hdocuments]
      exact ⟨trivial, hcollections, hoffline⟩
    | find collection filter p =>
      simp only [answer, reply, find, if_neg off, if_neg off', hdocuments]
      exact ⟨trivial, hcollections, hoffline⟩
    | collections =>
      simp only [answer, reply, names, if_neg off, if_neg off', hcollections]
      exact ⟨trivial, hcollections, hoffline⟩
    | insert | update | remove | drop => exact read.elim

/-- A read leaves the content as it is, whether it succeeds or not. -/
theorem sameContent_of_read {m m₁ m₂ : Memory} (call : Call) {result : call.Answer}
    (h : m.SameContent m₁) (read : call.isRead) (ha : answer m₁ call = (result, m₂)) :
    m.SameContent m₂ := by
  have := (answer_read h read).2
  rwa [ha] at this

/-- A dialogue of reads goes as the store's content has it, and leaves the content. -/
theorem run_eq_eval {α : Type} (m : Memory) {d : Dialogue α} (reads : d.OnlyAsks Call.isRead) :
    (d.run answer m).1 = d.eval m.reply ∧ m.SameContent (d.run answer m).2 :=
  Dialogue.run_eq_eval (fun _ _ keeps good => answer_read keeps good) reads (SameContent.refl m)

end Memory

end LinkedDocs
