import LinkedDocs.Store.Call

/-!
# The store in memory

A `Memory` keeps each collection as a list of documents in the order of insertion. Every write
stamps the document with a revision number that has never been used before, in the bookkeeping field
`_rev`. Reads are counted per collection, and the store can be switched off, which makes every call
fail.

Collections without documents do not exist for a caller, with one exception that `insert` states.
-/

namespace LinkedDocs

/-- The bookkeeping field that holds the revision of a document. -/
def revisionField : String := "_rev"

/-- A store in memory. -/
structure Memory where
  collections : Dict (List Fields)
  /-- The last revision that was given out. -/
  revision : Nat
  offline : Bool
  /-- How often each collection was asked for one document. -/
  gets : Dict Nat
  /-- How often each collection was searched. -/
  finds : Dict Nat

namespace Memory

/-- The store before the first call. -/
def empty : Memory := ⟨.empty, 0, false, .empty, .empty⟩

instance : Inhabited Memory := ⟨empty⟩

/-- Adds one to the count under a name. -/
def countUp (counts : Dict Nat) (name : String) : Dict Nat :=
  counts.set name ((counts.get? name).getD 0 + 1)

/-- The sum of the counts under all names. -/
def sumCounts (counts : Dict Nat) : Nat := counts.entries.foldr (fun pair n => pair.2 + n) 0

/-- The sum of all counts. -/
def totalReads (m : Memory) : Nat := sumCounts m.gets + sumCounts m.finds

/-- Sets all counts back to nothing. -/
def resetCounts (m : Memory) : Memory := { m with gets := .empty, finds := .empty }

/-- The documents of a collection. -/
def documents (m : Memory) (collection : String) : List Fields :=
  (m.collections.get? collection).getD []

/-- The id under which a stored document is found, if it is a string. -/
def storedId (document : Fields) : Option String :=
  match document.get? idField with
  | some (.string id) => some id
  | _ => none

/-- Whether a stored document has this id. -/
def hasId (id : String) (document : Fields) : Bool := storedId document == some id

/-- The revision in a stored document. -/
def revisionIn (document : Fields) : Option Nat :=
  match document.get? revisionField with
  | some (.number n) => n.count?
  | _ => none

/-- The revision of a stored document. -/
def revisionOf (m : Memory) (collection id : String) : Option Nat :=
  ((m.documents collection).find? (hasId id)).bind revisionIn

/-- Writes a revision into a document. -/
def stamp (revision : Nat) (document : Fields) : Fields :=
  document.set revisionField (.ofInt revision)

/-- Stamps documents with consecutive revisions, the first following the one given. -/
def stampAll (revision : Nat) : List Fields → List Fields
  | [] => []
  | document :: rest => stamp (revision + 1) document :: stampAll (revision + 1) rest

/-- Puts a collection in, or takes it out if it holds nothing. -/
def withDocuments (m : Memory) (collection : String) (documents : List Fields) : Memory :=
  { m with
    collections :=
      if documents.isEmpty then m.collections.erase collection
      else m.collections.set collection documents }

/-- The error of a store that is switched off. -/
def unreachable : StoreError := .unavailable "memory store is offline"

/-- The entity that a stored document makes, with the fields that are asked for. -/
def load (document : Fields) (projection : Projection) : Except StoreError Entity :=
  (Entity.ofStored (projection.apply document)).mapError .invalidDocument

/-- Loads one document. -/
def get (m : Memory) (collection id : String) (projection : Projection) :
    Except StoreError (Option Entity) × Memory :=
  if m.offline then (.error unreachable, m)
  else
    let answer :=
      match (m.documents collection).find? (hasId id) with
      | none => .ok none
      | some document => (load document projection).map some
    (answer, { m with gets := countUp m.gets collection })

/-- The documents that pass a filter, which sees all their visible fields. The first document that
cannot be read ends the search. -/
def select (filter : Filter) (projection : Projection) :
    List Fields → Except StoreError (List Entity)
  | [] => .ok []
  | document :: rest => do
    let entity ← load document .all
    if filter.holds entity then
      let found ← load document projection
      let others ← select filter projection rest
      return found :: others
    else select filter projection rest

/-- Loads all documents of a collection that pass a filter. -/
def find (m : Memory) (collection : String) (filter : Filter) (projection : Projection) :
    Except StoreError (List Entity) × Memory :=
  if m.offline then (.error unreachable, m)
  else
    (select filter projection (m.documents collection),
      { m with finds := countUp m.finds collection })

/-- The first entity whose id is taken, by a document that is there or by an entity before it. -/
def firstTaken (taken : List String) : List Entity → Option String
  | [] => none
  | entity :: rest =>
    if taken.contains entity.id then some entity.id
    else firstTaken (taken ++ [entity.id]) rest

/-- Adds documents to a collection; none is added if an id is taken. A collection that does not
exist is set up before the ids are looked at, so a batch that fails leaves it behind without
documents. -/
def insert (m : Memory) (collection : String) (entities : List Entity) :
    Except StoreError Unit × Memory :=
  if m.offline then (.error unreachable, m)
  else
    let documents := m.documents collection
    match firstTaken (documents.filterMap storedId) entities with
    | some id =>
      (.error (.duplicateId collection id),
        { m with collections := m.collections.set collection documents })
    | none =>
      let stamped := stampAll m.revision (entities.map (·.fields))
      (.ok (), { m.withDocuments collection (documents ++ stamped) with
        revision := m.revision + entities.length })

/-- The document that an update makes of a stored one. A patch takes the revision out, the last
field moving into its place, then takes fields out, then sets fields; it never sets the id. -/
def changed (document : Fields) (id : String) : Update → Except StoreError Fields
  | .replace entity =>
    if entity.id = id then .ok entity.fields
    else .error (.invalidDocument (.otherId entity.id id))
  | .patch set unset =>
    let left := unset.foldl Dict.erase (document.swapErase revisionField)
    .ok ((set.entries.filter fun pair => pair.1 != idField).foldl
      (fun fields pair => fields.set pair.1 pair.2) left)

/-- Replaces the first document with this id. -/
def replaceFirst (id : String) (document : Fields) : List Fields → List Fields
  | [] => []
  | old :: rest => if hasId id old then document :: rest else old :: replaceFirst id document rest

/-- Changes one document. -/
def update (m : Memory) (collection id : String) (change : Update) :
    Except StoreError Bool × Memory :=
  if m.offline then (.error unreachable, m)
  else
    let documents := m.documents collection
    match documents.find? (hasId id) with
    | none => (.ok false, m)
    | some document =>
      match changed document id change with
      | .error e => (.error e, m)
      | .ok next =>
        let next := stamp (m.revision + 1) next
        (.ok true, { m with
          collections := m.collections.set collection (replaceFirst id next documents)
          revision := m.revision + 1 })

/-- Deletes one document. -/
def remove (m : Memory) (collection id : String) : Except StoreError Bool × Memory :=
  if m.offline then (.error unreachable, m)
  else
    match m.collections.get? collection with
    | none => (.ok false, m)
    | some documents =>
      (.ok (documents.any (hasId id)),
        m.withDocuments collection (documents.filter fun document => !hasId id document))

/-- Deletes a collection. -/
def drop (m : Memory) (collection : String) : Except StoreError Bool × Memory :=
  if m.offline then (.error unreachable, m)
  else
    (.ok (m.collections.contains collection),
      { m with collections := m.collections.erase collection })

/-- The names of the collections, sorted. -/
def names (m : Memory) : Except StoreError (List String) × Memory :=
  if m.offline then (.error unreachable, m) else (.ok (sortedNames m.collections.keys), m)

/-- Answers a call. -/
def answer : Server Memory
  | m, .get collection id projection => m.get collection id projection
  | m, .find collection filter projection => m.find collection filter projection
  | m, .insert collection entities => m.insert collection entities
  | m, .update collection id change => m.update collection id change
  | m, .remove collection id => m.remove collection id
  | m, .drop collection => m.drop collection
  | m, .collections => m.names

/-- The entities that clients' documents make; the first that makes none is an error. -/
def entitiesOf : List Value → Except StoreError (List Entity)
  | [] => .ok []
  | value :: values => do
    let entity ← (Entity.ofValue value).mapError .invalidDocument
    let entities ← entitiesOf values
    return entity :: entities

/-- Adds clients' documents to a collection. -/
def seed (m : Memory) (collection : String) (documents : List Value) :
    Except StoreError Unit × Memory :=
  match entitiesOf documents with
  | .error e => (.error e, m)
  | .ok entities => m.insert collection entities

end Memory

end LinkedDocs
