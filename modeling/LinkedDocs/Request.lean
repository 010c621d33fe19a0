import LinkedDocs.Selector.Forms
import LinkedDocs.Json.Reader

/-!
# Requests

A request says what to read of each document (`select`) and of which documents (the members of a
scope). Without a selector documents are read whole; `null` is the request for everything.
-/

namespace LinkedDocs

/-- What to read, and of which documents. -/
structure Request where
  /-- Without a selector, whole documents. -/
  select : Option Selector
  scope : Scope

namespace Request

/-- Every field of every document. -/
def full : Request := ⟨none, .unrestricted⟩

/-- Whether this is the request for every field of every document. -/
def isFull (r : Request) : Bool := r.select.isNone && r.scope.same .unrestricted

/-- Reads a request; how written selectors are read is a parameter. -/
def ofValueWith {σ : Type} (readText : String → Reading σ Selector) : Value → Reading σ Request
  | .null => pure full
  | .object members => do
    let select ← Selector.ofSelectMember readText members
    match Scope.ofMembers members with
    | .ok scope => return ⟨select, scope⟩
    | .error error => throw error
  | value => throw (.badSelector value.text .queryNotObject)

/-- Reads a request. -/
def ofValue (value : Value) : Except QueryError Request :=
  ((ofValueWith Selector.readPlain value).run ()).1

/-- Reads a request that is given as JSON text. -/
def ofText (raw : String) : Except QueryError Request :=
  match Value.ofText? raw with
  | some value => ofValue value
  | none => .error (.badSelector raw .invalidJson)

end Request

end LinkedDocs
