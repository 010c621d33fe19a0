import LinkedDocs.Json.Printer
import LinkedDocs.Store.Error

/-!
# Entities and their links

An `Entity` is a document with an id in string form. That the id is the content of the field `id` is
part of the type. Reading a document from a client (`ofValue`) turns a numeric id into its text, in
place; reading one from a store (`ofStored`) first drops the bookkeeping fields, whose names start
with an underscore.

A field named like a collection can link to documents of that collection. `Entity.link` is the one
place that looks at the shape of a field to decide this.
-/

namespace LinkedDocs

/-- The name of the field that identifies a document within its collection. -/
def idField : String := "id"

/-- Whether a field is bookkeeping of the store. -/
def isInternal (name : String) : Bool := name.toList.head? == some '_'

/-- How a field named after a collection links to it. -/
inductive Link where
  /-- There is no such field. -/
  | absent
  | single (id : String)
  | many (ids : List String)
  /-- There is a field, but it holds something that is no reference. -/
  | invalid
  deriving DecidableEq

/-- The ids that a list of scalars holds; none if one of the values is no scalar. -/
def scalarTexts? : List Value → Option (List String)
  | [] => some []
  | value :: values => do
    let text ← value.scalarText?
    let texts ← scalarTexts? values
    return text :: texts

/-- How a field value links to a collection. -/
def Link.ofField : Option Value → Link
  | none => .absent
  | some (.array items) =>
    match scalarTexts? items with
    | some ids => .many ids
    | none => .invalid
  | some value =>
    match value.scalarText? with
    | some id => .single id
    | none => .invalid

/-- A document with its id in string form. -/
structure Entity where
  fields : Fields
  id : String
  id_eq : fields.get? idField = some (.string id)

namespace Entity

@[ext] theorem ext {a b : Entity} (h : a.fields = b.fields) : a = b := by
  obtain ⟨fields, id, id_eq⟩ := a
  obtain ⟨fields', id', id_eq'⟩ := b
  cases h
  have : id = id' := by simpa using id_eq.symm.trans id_eq'
  cases this
  rfl

instance : DecidableEq Entity := fun a b =>
  if h : a.fields = b.fields then .isTrue (ext h) else .isFalse fun e => h (e ▸ rfl)

/-- The entity with these fields and this id, which is written into the field `id`. -/
def withId (fields : Fields) (id : String) : Entity :=
  ⟨fields.set idField (.string id), id, Dict.get?_set_self ..⟩

/-- The entity that a document's fields make; the id has to be a string or a number. -/
def ofFields (fields : Fields) : Except DocumentFault Entity :=
  match fields.get? idField with
  | none => .error .missingId
  | some value =>
    match value.scalarText? with
    | none => .error (.badId value.kind)
    | some id => .ok (withId fields id)

/-- The entity that a client's document makes. -/
def ofValue : Value → Except DocumentFault Entity
  | .object members => ofFields (Dict.ofList members)
  | value => .error (.notObject value.kind)

/-- The fields that leave the store. -/
def visible (fields : Fields) : Fields := fields.filter fun name _ => !isInternal name

/-- The entity that a stored document makes, without bookkeeping. -/
def ofStored (fields : Fields) : Except DocumentFault Entity := ofFields (visible fields)

/-- The value of a field. -/
def get? (e : Entity) (field : String) : Option Value := e.fields.get? field

/-- The entity as a JSON object. -/
def toValue (e : Entity) : Value := .ofFields e.fields

/-- How the field named `target` links to the collection of that name. -/
def link (e : Entity) (target : String) : Link := .ofField (e.get? target)

@[simp] theorem get?_id (e : Entity) : e.get? idField = some (.string e.id) := e.id_eq

/-- Fields that hold the id in string form already are the entity as they stand. -/
theorem ofFields_eq_ok {fields : Fields} {id : String}
    (h : fields.get? idField = some (.string id)) : ofFields fields = .ok ⟨fields, id, h⟩ := by
  simp only [ofFields, h, Value.scalarText?]
  exact congrArg Except.ok (ext (Dict.set_of_get? h))

theorem get?_visible (fields : Fields) (name : String) :
    (visible fields).get? name = if isInternal name then none else fields.get? name := by
  rw [visible, Dict.get?_filter]
  cases fields.get? name with
  | none => simp
  | some value => cases isInternal name <;> simp

/-- A document is an entity exactly if it has a scalar id. -/
theorem ofFields_eq_ok_iff (fields : Fields) (e : Entity) :
    ofFields fields = .ok e ↔
      ∃ value id, fields.get? idField = some value ∧ value.scalarText? = some id ∧
        e = withId fields id := by
  unfold ofFields
  constructor
  · intro h
    split at h
    · simp at h
    · next value hv =>
      split at h
      · simp at h
      · next id hid =>
        exact ⟨value, id, hv, hid, by simpa using h.symm⟩
  · rintro ⟨value, id, hv, hid, rfl⟩
    simp [hv, hid]

end Entity

end LinkedDocs
