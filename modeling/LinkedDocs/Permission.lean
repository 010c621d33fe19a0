import LinkedDocs.Filter
import LinkedDocs.Query.Error

/-!
# Permissions

A caller sees everything, or what is granted to it: whole collections, or some ids of a collection.
A single document is checked by its id. A search is narrowed before it reaches the store: conditions
on the id may only name ids that are granted, and without such a condition the granted ids become
one.
-/

namespace LinkedDocs

/-- What is granted of a collection. -/
inductive Grant where
  | all
  /-- These ids, in the order in which they were granted. -/
  | ids (ids : List String)
  deriving DecidableEq

/-- What a caller may see. -/
inductive Permission where
  /-- Everything; for callers inside the system. -/
  | unrestricted
  /-- What is granted, the latest grant of a collection first; an administrator may see everything.
  -/
  | granted (admin : Bool) (grants : List (String × Grant))
  deriving DecidableEq

namespace Permission

/-- No grants at all. -/
def nothing : Permission := .granted false []

/-- An administrator. -/
def admin : Permission := .granted true []

/-- Adds a grant; it takes the place of an earlier one for the collection. Whoever sees everything
needs none. -/
def grant (p : Permission) (collection : String) (g : Grant) : Permission :=
  match p with
  | .unrestricted => .unrestricted
  | .granted admin grants => .granted admin ((collection, g) :: grants)

/-- Reads what is granted of a collection: `"*"` or a list of ids, of which only scalars count. -/
def readGrant? : Value → Option Grant
  | .string s => if s = "*" then some .all else none
  | .array ids => some (.ids (ids.filterMap Value.scalarText?))
  | _ => none

/-- Reads the permission of a session: `"*"` is an administrator, an object maps collections to what
is granted of them. A caller without one may see nothing. -/
def ofGrants : Option Value → Except QueryError Permission
  | some (.string s) => if s = "*" then .ok admin else .error (.forbidden "*" "*")
  | some (.object members) =>
    .ok (.granted false (members.filterMap fun (collection, value) =>
      (readGrant? value).map (collection, ·)))
  | _ => .error (.forbidden "*" "*")

/-- Whether the caller may see a document. -/
def check : Permission → (collection id : String) → Bool
  | .unrestricted, _, _ => true
  | .granted true _, _, _ => true
  | .granted false grants, collection, id =>
    match grants.lookup collection with
    | some .all => true
    | some (.ids ids) => ids.contains id
    | none => false

/-- Whether a search of the collection has to be narrowed. -/
def restricts : Permission → (collection : String) → Bool
  | .unrestricted, _ => false
  | .granted admin grants, collection =>
    !admin && grants.lookup collection != some .all

/-- The ids that are granted one by one. -/
def whitelist : Permission → (collection : String) → List String
  | .unrestricted, _ => []
  | .granted _ grants, collection =>
    match grants.lookup collection with
    | some (.ids ids) => ids
    | _ => []

/-- The values that a test names; a pattern names none. -/
def named? : Test → Option (List Value)
  | .equals value => some [value]
  | .isIn values => some values
  | .glob _ => none

/-- Whether a value is the id of a document in the list. -/
def allows (ids : List String) (value : Value) : Bool :=
  match value.scalarText? with
  | some id => ids.contains id
  | none => false

/-- The first value that one of the tests names and that is not granted. -/
def firstDenied (ids : List String) (tests : List Test) : Option Value :=
  (tests.flatMap fun test => (named? test).getD []).find? fun value => !allows ids value

/-- Narrows a filter to what the caller may see. Conditions on the id must name granted ids only; if
none names any, the granted ids become a condition. -/
def narrow (p : Permission) (collection : String) (filter : Filter) : Except QueryError Filter :=
  if p.restricts collection then
    let ids := p.whitelist collection
    let (tests, others) := filter.takeField idField
    match firstDenied ids tests with
    | some value =>
      .error (.forbidden collection (value.scalarText?.getD value.text))
    | none =>
      let kept := others ++ tests.map (⟨idField, ·⟩)
      if tests.any fun test => (named? test).isSome then .ok kept
      else .ok (kept ++ [⟨idField, .isIn (ids.map .string)⟩])
  else .ok filter

end Permission

end LinkedDocs
