import LinkedDocs.Entity

/-!
# Changes

What has changed between two versions of a document is a list of names. A field counts as a link if
it is named like a collection and one of its versions has the shape of a link, a scalar or an array
of scalars. Links are compared over both versions; of the other fields only those of the new version
are looked at, so one that disappears is not reported. Bookkeeping fields never are.

Between two versions of a collection, documents are matched by id.
-/

namespace LinkedDocs

/-- The names that have changed between two versions of a document. -/
structure Change where
  /-- Fields that are no links, in the order of the new version. -/
  fields : List String
  /-- Links, sorted. -/
  links : List String
  deriving DecidableEq

namespace Change

/-- Nothing has changed. -/
def isEmpty (c : Change) : Bool := c.fields.isEmpty && c.links.isEmpty

/-- The names as they are announced: fields, then links with a sign in front. -/
def names (c : Change) : List String := c.fields ++ c.links.map ("@" ++ ·)

/-- Whether a value can be a link: a scalar or an array of scalars. -/
def linkShaped : Value → Bool
  | .array items => items.all fun item => item.scalarText?.isSome
  | value => value.scalarText?.isSome

/-- Whether a field is a link in one of its versions. -/
def isLink (collections : List String) (name : String) (old new : Option Value) : Bool :=
  collections.contains name && (old.any linkShaped || new.any linkShaped)

/-- Whether a field has another value than before. -/
def differs (old : Option Value) (new : Value) : Bool :=
  match old with
  | some value => !value.same new
  | none => true

/-- The names in the new version, bookkeeping apart, that are new or have another value. -/
def changedNames (old new : Fields) : List String :=
  (new.entries.filter fun (name, value) =>
    !isInternal name && differs (old.get? name) value).map Prod.fst

/-- The names of the old version, bookkeeping apart, that the new one does not have. -/
def removedNames (old new : Fields) : List String :=
  (old.entries.filter fun (name, _) => !new.contains name && !isInternal name).map Prod.fst

/-- What has changed between two versions of a document, given the names of the collections. -/
def between (old new : Fields) (collections : List String) : Change :=
  let link (name : String) : Bool := isLink collections name (old.get? name) (new.get? name)
  let changed := changedNames old new
  ⟨changed.filter fun name => !link name,
    sortedNames (changed.filter link ++ (removedNames old new).filter link)⟩

/-- The fields of a patch that can change a document: not the id, and `null` only where a field is
set. -/
def effective (document patch : Fields) : Fields :=
  patch.filter fun name value => name != idField && !(value.isNull && !document.contains name)

/-- What a patch changes in a document. -/
def ofPatch (document patch : Fields) (collections : List String) : Change :=
  between document (effective document patch) collections

end Change

/-- What has changed between two versions of a collection. -/
structure CollectionChange where
  /-- Ids of the new version only, in its order. -/
  created : List String
  /-- Ids of both versions whose documents differ, in the new order. -/
  updated : List (String × Change)
  /-- Ids of the old version only, in its order. -/
  deleted : List String
  deriving DecidableEq

namespace CollectionChange

/-- Number of documents that have changed. -/
def size (c : CollectionChange) : Nat := c.created.length + c.updated.length + c.deleted.length

/-- No document has changed. -/
def isEmpty (c : CollectionChange) : Bool :=
  c.created.isEmpty && c.updated.isEmpty && c.deleted.isEmpty

/-- The last entity with an id. -/
def lastWithId (id : String) (entities : List Entity) : Option Entity :=
  entities.reverse.find? (·.id == id)

/-- How an entity has changed against the old version of its collection, if it is in there and
differs. -/
def update? (old : List Entity) (collections : List String) (e : Entity) :
    Option (String × Change) :=
  (lastWithId e.id old).bind fun before =>
    let change := Change.between before.fields e.fields collections
    if change.isEmpty then none else some (e.id, change)

/-- What has changed between two versions of a collection, given the names of the collections. -/
def between (old new : List Entity) (collections : List String) : CollectionChange :=
  let oldIds := old.map Entity.id
  let newIds := new.map Entity.id
  ⟨newIds.filter fun id => !oldIds.contains id,
    new.filterMap (update? old collections),
    oldIds.filter fun id => !newIds.contains id⟩

theorem mem_created_iff {old new : List Entity} {collections : List String} {id : String} :
    id ∈ (between old new collections).created ↔
      id ∈ new.map Entity.id ∧ id ∉ old.map Entity.id := by
  simp [between]

theorem mem_deleted_iff {old new : List Entity} {collections : List String} {id : String} :
    id ∈ (between old new collections).deleted ↔
      id ∈ old.map Entity.id ∧ id ∉ new.map Entity.id := by
  simp [between]

theorem lastWithId_eq_some {id : String} {entities : List Entity} {e : Entity}
    (h : lastWithId id entities = some e) : e ∈ entities ∧ e.id = id :=
  ⟨List.mem_reverse.mp (List.mem_of_find?_eq_some h), by simpa using List.find?_some h⟩

/-- An update is about a document of both versions, and is a change. -/
theorem update?_eq_some {old : List Entity} {collections : List String} {e : Entity}
    {id : String} {change : Change} (h : update? old collections e = some (id, change)) :
    e.id = id ∧ change.isEmpty = false ∧ ∃ before ∈ old, before.id = id ∧
      change = Change.between before.fields e.fields collections := by
  obtain ⟨before, hbefore, hchange⟩ := Option.bind_eq_some_iff.mp h
  obtain ⟨hmem, hid⟩ := lastWithId_eq_some hbefore
  simp only at hchange
  split at hchange
  · cases hchange
  · next hsome =>
    cases hchange
    exact ⟨rfl, by simpa using hsome, before, hmem, hid, rfl⟩

end CollectionChange

end LinkedDocs
