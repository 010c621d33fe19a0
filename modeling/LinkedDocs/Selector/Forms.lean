import LinkedDocs.Selector.Reader

/-!
# The JSON forms of a selector

Besides the written form there are two others. An array is a list of selectors, in which nested
arrays count as their items. An object `{"ref": target}` or `{"many_ref": target}` is a reference,
with what to read there under `select`, and for a many reference the members of a scope.

How a written selector inside is read is a parameter, with a state of its own, so that readings can
be remembered. The state also counts if the whole form turns out to be malformed.
-/

namespace LinkedDocs

/-- A reading that may fail and keeps a state either way. -/
abbrev Reading (σ : Type) := ExceptT QueryError (StateM σ)

namespace Selector

variable {σ : Type}

/-- A malformed form. -/
def refuse {α : Type} (form : Value) (fault : RequestFault) : Reading σ α :=
  throw (.badSelector form.text fault)

/-- The reference that an object describes. -/
def ofTargets (members : List (String × Value)) (sub : Option Selector) : Reading σ Selector :=
  match Dict.find "ref" members, Dict.find "many_ref" members with
  | some (.string target), none => pure (.one target sub)
  | none, some (.string target) =>
    match Scope.ofMembers members with
    | .ok scope => pure (.many target sub scope)
    | .error error => throw error
  | none, none => refuse (.object members) .noTarget
  | some _, some _ => refuse (.object members) .twoTargets
  | _, _ => refuse (.object members) .targetNotString

mutual

/-- Reads any form of a selector. -/
def ofValueWith (readText : String → Reading σ Selector) : Value → Reading σ Selector
  | .string text => readText text
  | .array items => do
    let selectors ← ofItems readText items
    return .list selectors
  | .object members => do
    let sub ← ofSelectMember readText members
    ofTargets members sub
  | .null => refuse .null .selectorShape
  | .bool b => refuse (.bool b) .selectorShape
  | .number n => refuse (.number n) .selectorShape

/-- Reads the items of an array, nested arrays as their items. -/
def ofItems (readText : String → Reading σ Selector) : List Value → Reading σ (List Selector)
  | [] => pure []
  | .array nested :: items => do
    let first ← ofItems readText nested
    let rest ← ofItems readText items
    return first ++ rest
  | item :: items => do
    let first ← ofValueWith readText item
    let rest ← ofItems readText items
    return first :: rest

/-- Reads the first member named `select`, if there is one that is not null. -/
def ofSelectMember (readText : String → Reading σ Selector) :
    List (String × Value) → Reading σ (Option Selector)
  | [] => pure none
  | (name, value) :: members =>
    if name = "select" then
      if value.isNull then pure none
      else do
        let sub ← ofValueWith readText value
        return some sub
    else ofSelectMember readText members

end

/-- Reads a written selector without remembering it. -/
def readPlain (text : String) : Reading Unit Selector := liftExcept (read text)
where
  /-- A result that needs no state. -/
  liftExcept {α : Type} : Except QueryError α → Reading Unit α
    | .ok a => pure a
    | .error e => throw e

/-- Reads any form of a selector. -/
def ofValue (form : Value) : Except QueryError Selector := ((ofValueWith readPlain form).run ()).1

end Selector

end LinkedDocs
