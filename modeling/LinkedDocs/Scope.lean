import LinkedDocs.Filter
import LinkedDocs.Order

/-!
# Scopes

A scope says which documents of a collection a fetch is about: those that pass a filter, in an
order, and of these a window that starts after `skip` documents and holds at most `limit`. Requests
and many references write it as the members `where`, `orderBy`, `limit` and `skip` of an object.
-/

namespace LinkedDocs

/-- Filter, order and window of a fetch. -/
structure Scope where
  filter : Filter
  order : Order
  /-- At most this many; without it there is no limit. -/
  limit : Option Nat
  skip : Nat

namespace Scope

/-- Everything, in the order of the store. -/
def unrestricted : Scope := ⟨[], [], none, 0⟩

instance : Inhabited Scope := ⟨unrestricted⟩

/-- Whether two scopes are the same. -/
def same (a b : Scope) : Bool :=
  a.filter.same b.filter && a.order == b.order && a.limit == b.limit && a.skip == b.skip

/-- The part of a sorted list that the window shows. -/
def window {α : Type} (s : Scope) (items : List α) : List α :=
  let rest := items.drop s.skip
  match s.limit with
  | some limit => rest.take limit
  | none => rest

@[simp] theorem window_unrestricted {α : Type} (items : List α) :
    unrestricted.window items = items := rfl

/-- Reads an operator: only membership is known. -/
def readOperator (field : String) (members : List (String × Value)) : Except QueryError Test :=
  let fragment := field ++ ": " ++ (Value.object members).text
  let refused := .error (.badSelector fragment .unknownOperator)
  match members with
  | [(name, .array values)] => if name = "in" ∨ name = "$in" then .ok (.isIn values) else refused
  | _ => refused

/-- Reads what a field is tested for: a pattern, an operator or a value that it equals. -/
def readTest (field : String) : Value → Except QueryError Test
  | .string raw =>
    if Glob.isGlob raw then
      match Glob.Pattern.ofSource raw with
      | .ok pattern => .ok (.glob pattern)
      | .error fault => .error (.ofStore (.invalidPattern raw fault))
    else .ok (.equals (.string raw))
  | .object members => readOperator field members
  | value => .ok (.equals value)

/-- Reads conditions, one for each member. -/
def readConditions : List (String × Value) → Except QueryError Filter
  | [] => .ok []
  | (field, value) :: members => do
    let test ← readTest field value
    let conditions ← readConditions members
    return ⟨field, test⟩ :: conditions

/-- Reads a filter. -/
def readFilter : Value → Except QueryError Filter
  | .null => .ok []
  | .object members => readConditions members
  | value => .error (.badSelector value.text .whereNotObject)

/-- Reads a count that may be left open. -/
def readCount (name : String) : Value → Except QueryError (Option Nat)
  | .null => .ok none
  | .number n =>
    match n.count? with
    | some count => .ok (some count)
    | none => .error (.badSelector (Value.number n).text (.notCount name))
  | value => .error (.badSelector value.text (.notCount name))

/-- Reads a scope from the members of an object. A limit of zero means none. -/
def ofMembers (members : List (String × Value)) : Except QueryError Scope := do
  let filter ← readFilter ((Dict.find "where" members).getD .null)
  let order ← Order.ofValue ((Dict.find "orderBy" members).getD .null)
  let limit ← readCount "limit" ((Dict.find "limit" members).getD .null)
  let skip ← readCount "skip" ((Dict.find "skip" members).getD .null)
  return ⟨filter, order, limit.filter (0 < ·), skip.getD 0⟩

end Scope

end LinkedDocs
