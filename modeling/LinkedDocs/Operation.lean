import LinkedDocs.Service

/-!
# Operations

The six ways in which clients change documents, as data. So a history is a list of operations, and
what holds of every write can be said of every operation.
-/

namespace LinkedDocs

/-- A change that a client asks for, with the body of the request. -/
inductive Operation where
  /-- Stores a document under the id in it. -/
  | create (collection : String) (data : Value)
  /-- Stores a document under an id, which has to be its own. -/
  | replace (collection id : String) (data : Value)
  /-- Sets fields of a document, or takes them out where the body holds `null`. -/
  | patch (collection id : String) (data : Value)
  /-- Puts documents in place of all that a collection holds. -/
  | replaceAll (collection : String) (data : Value)
  /-- Deletes one document. -/
  | remove (collection id : String)
  /-- Deletes a collection with all it holds. -/
  | removeAll (collection : String)

namespace Operation

/-- What a successful operation is answered with. -/
abbrev Result : Operation → Type
  | .create .. => Bool
  | .replace .. => Bool
  | .patch .. => Unit
  | .replaceAll .. => Bool
  | .remove .. => Unit
  | .removeAll .. => Unit

/-- Whether the operation writes a whole collection, which takes more than one write of the store.
-/
def isBulk : Operation → Bool
  | .replaceAll .. => true
  | _ => false

/-- The write that carries out an operation. -/
def write : (op : Operation) → Write op.Result
  | .create collection data => Manager.create collection data
  | .replace collection id data => Manager.replace collection id data
  | .patch collection id data => Manager.patch collection id data
  | .replaceAll collection data => Manager.replaceAll collection data
  | .remove collection id => Manager.remove collection id
  | .removeAll collection => Manager.removeAll collection

end Operation

namespace Service

variable {σ τ : Type}

/-- Carries out an operation. -/
def perform (server : Server σ) (sink : Sink τ) (op : Operation) (s : Service σ τ) :
    Except ManagerError op.Result × Service σ τ :=
  s.write server sink op.write

/-- Carries out operations one after another, whether they succeed or not. -/
def performAll (server : Server σ) (sink : Sink τ) : List Operation → Service σ τ → Service σ τ
  | [], s => s
  | op :: ops, s => performAll server sink ops (s.perform server sink op).2

end Service

end LinkedDocs
