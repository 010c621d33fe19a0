import LinkedDocs.Notification
import LinkedDocs.Query
import LinkedDocs.Selector.Cache

/-!
# The manager

All reading and writing of documents goes through the manager. A write validates what it is given,
loads the version that is stored, works out what changes, asks the store for the write, and at last
announces the change. An error ends it where it stands.

A write is a dialogue with the store that also keeps a list of announcements; handing them to a sink
is up to whoever runs it, and what the sink answers does not matter to the write.
-/

namespace LinkedDocs

/-- Why the body of a write is refused. -/
inductive BodyFault where
  | empty
  | notObject
  | missingId
  | badId
  | notArray
  | duplicateId (id : String)
  /-- The document is written under another id. -/
  | otherId
  | patchedId
  deriving DecidableEq

/-- The text of a fault in a body. -/
def BodyFault.message : BodyFault → String
  | .empty => "Request body cannot be empty."
  | .notObject => "Document must be a JSON object."
  | .missingId => "Document needs to contain the 'id' attribute."
  | .badId => "Document id must be a string or a number."
  | .notArray => "Request must contain an array."
  | .duplicateId id => "Duplicate document id: " ++ id
  | .otherId => "Document id must match last segment of document URL."
  | .patchedId => "Document id cannot be patched."

/-- What was to be done with a document that does not exist. -/
inductive MissingFor where
  | patch
  | delete
  deriving DecidableEq

/-- Why a read or a write failed. -/
inductive ManagerError where
  | badRequest (fault : BodyFault)
  | notFound (purpose : MissingFor)
  | query (error : QueryError)
  | store (error : StoreError)
  deriving DecidableEq

namespace ManagerError

/-- The text of an error. -/
def message : ManagerError → String
  | .badRequest fault => fault.message
  | .notFound .patch => "Cannot patch non-existing document."
  | .notFound .delete => "Cannot delete non-existing document."
  | .query error => error.message
  | .store error => error.message

/-- The status class of an error. -/
def status : ManagerError → Nat
  | .badRequest _ => 400
  | .notFound _ => 404
  | .query error => error.status
  | .store (.unavailable _) => 503
  | .store _ => 400

end ManagerError

/-- A write: a dialogue with the store that may fail and keeps its announcements. -/
abbrev Write := ExceptT ManagerError (StateT (List Notification) Dialogue)

namespace Write

/-- Runs a write; the announcements come with the result. -/
def start {α : Type} (w : Write α) : Dialogue (Except ManagerError α × List Notification) :=
  (w.run).run []

/-- Asks the store. -/
def ask (call : Call) : Write call.Reply := do
  match ← liftM (Dialogue.call call) with
  | .ok reply => return reply
  | .error error => throw (.store error)

/-- Reads by a query. -/
def query {α : Type} (outcome : Query.Outcome α) : Write α := do
  let result : Except QueryError α ← liftM outcome
  match result with
  | .ok a => return a
  | .error error => throw (.query error)

/-- Goes on if a check has succeeded. -/
def check {α : Type} : Except BodyFault α → Write α
  | .ok a => pure a
  | .error fault => throw (.badRequest fault)

/-- Adds announcements. -/
def announce (notifications : List Notification) : Write Unit :=
  modify fun announced => announced ++ notifications

end Write

namespace Manager

/-! ## Checks -/

/-- The fields in a body. -/
def fieldsOf : Value → Except BodyFault Fields
  | .null => .error .empty
  | .object members => .ok (Dict.ofList members)
  | _ => .error .notObject

/-- The complete document in a body. -/
def documentOf (data : Value) : Except BodyFault Entity := do
  let fields ← fieldsOf data
  match fields.get? idField with
  | none => .error .missingId
  | some value =>
    match value.scalarText? with
    | none => .error .badId
    | some id => .ok (.withId fields id)

/-- The complete documents in a list of bodies. -/
def documentsOf : List Value → Except BodyFault (List Entity)
  | [] => .ok []
  | data :: rest => do
    let entity ← documentOf data
    let entities ← documentsOf rest
    return entity :: entities

/-- The items of a body. -/
def itemsOf : Value → Except BodyFault (List Value)
  | .array items => .ok items
  | _ => .error .notArray

/-- The first id that comes a second time. -/
def firstRepeated (seen : List String) : List String → Option String
  | [] => none
  | id :: ids => if seen.contains id then some id else firstRepeated (id :: seen) ids

/-- The documents with distinct ids in a body. -/
def collectionOf (data : Value) : Except BodyFault (List Entity) := do
  let items ← itemsOf data
  let entities ← documentsOf items
  match firstRepeated [] (entities.map Entity.id) with
  | some id => .error (.duplicateId id)
  | none => .ok entities

/-- The document in a body that is to be written under an id. -/
def replacementOf (id : String) (data : Value) : Except BodyFault Entity := do
  let entity ← documentOf data
  if entity.id = id then .ok entity else .error .otherId

/-- The patch in a body for the document with an id, which it may name but not change. -/
def patchOf (id : String) (data : Value) : Except BodyFault Fields := do
  let fields ← fieldsOf data
  match fields.get? idField with
  | none => .ok fields
  | some value => if value.scalarText? = some id then .ok fields else .error .patchedId

/-- The fields that a patch sets. -/
def settings (patch : Fields) : Fields :=
  patch.filter fun name value => name != idField && !value.isNull

/-- The fields that a patch takes out: those that it sets to `null`. -/
def removals (patch : Fields) : List String :=
  (patch.filter fun name value => name != idField && value.isNull).keys

/-! ## Writes -/

/-- Stores a document in place of the one with its id, if there is one. The result tells whether it
is new. -/
def put (collection : String) (e : Entity) : Write Bool := do
  match ← Write.query (Query.load collection e.id) with
  | none =>
    let _ ← Write.ask (.insert collection [e])
    Write.announce [⟨collection, e.id, .created⟩]
    return true
  | some before =>
    let names : List String ← Write.ask .collections
    let change := Change.between before.fields e.fields names
    let _ ← Write.ask (.update collection e.id (.replace e))
    Write.announce (Notification.updated? collection e.id change).toList
    return false

/-- Stores a document; one with the same id is replaced. The result tells whether it is new. -/
def create (collection : String) (data : Value) : Write Bool := do
  let e ← Write.check (documentOf data)
  put collection e

/-- Stores a document under an id, which has to be its own. The result tells whether it is new. -/
def replace (collection id : String) (data : Value) : Write Bool := do
  let e ← Write.check (replacementOf id data)
  put collection e

/-- Sets fields of a document, or takes them out where the patch holds `null`. -/
def patch (collection id : String) (data : Value) : Write Unit := do
  let fields ← Write.check (patchOf id data)
  if fields.isEmpty then pure ()
  else
    match ← Write.query (Query.load collection id) with
    | none => throw (.notFound .patch)
    | some before =>
      let names : List String ← Write.ask .collections
      let change := Change.ofPatch before.fields fields names
      let _ ← Write.ask (.update collection id (.patch (settings fields) (removals fields)))
      Write.announce (Notification.updated? collection id change).toList

/-- Deletes a collection with all it holds. -/
def removeAll (collection : String) : Write Unit := do
  let existing : List Entity ← Write.ask (.find collection [] (.fields [idField]))
  let _ ← Write.ask (.drop collection)
  Write.announce (Notification.ofDeleted collection (existing.map Entity.id))

/-- Puts documents in place of all that a collection holds; without documents it is deleted. The
result tells whether the collection is new. -/
def replaceAll (collection : String) (data : Value) : Write Bool := do
  let entities ← Write.check (collectionOf data)
  if entities.isEmpty then
    removeAll collection
    return false
  else
    let existing ← Write.query (Query.loadAll collection)
    let names : List String ← Write.ask .collections
    let change := CollectionChange.between existing entities names
    let _ ← Write.ask (.drop collection)
    let _ ← Write.ask (.insert collection entities)
    Write.announce (Notification.ofCollection collection change)
    return existing.isEmpty

/-- Deletes one document. -/
def remove (collection id : String) : Write Unit := do
  let existed : Bool ← Write.ask (.remove collection id)
  if existed then Write.announce [⟨collection, id, .deleted⟩]
  else throw (.notFound .delete)

/-! ## Reads -/

/-- A read: it changes what is remembered of selectors, and asks the store. -/
abbrev Read (α : Type) := SelectorCache → Dialogue (Except ManagerError α) × SelectorCache

/-- Reads a request and goes on with a query. -/
def reading {α : Type} (request : Value) (query : Request → Query.Outcome α) : Read α :=
  fun cache =>
    match (SelectorCache.requestOf request).run cache with
    | (.error error, cache) => (.done (.error (.query error)), cache)
    | (.ok request, cache) =>
      ((query request).bind fun result => .done (result.mapError .query), cache)

/-- Reads one document; none if it does not exist. -/
def get (permission : Permission) (collection id : String) (request : Value) :
    Read (Option Value) :=
  reading request (Query.one permission collection id)

/-- Reads a page of a collection. -/
def list (permission : Permission) (collection : String) (request : Value) : Read (List Value) :=
  reading request (Query.many permission collection)

end Manager

end LinkedDocs
