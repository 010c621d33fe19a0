import LinkedDocs.Entity
import LinkedDocs.Query.Error
import LinkedDocs.Text.CodePoints

/-!
# Sort orders

Entities are sorted by a list of keys, of which the first that differs decides; entities equal under
all of them keep their order. Values of different kinds are ordered by kind: absent and `null`
first, then numbers, strings, objects, arrays and booleans. Numbers compare by their finite double
value, strings by code point, objects and arrays by their JSON text.
-/

namespace LinkedDocs

/-- A field to sort by. -/
structure SortKey where
  field : String
  descending : Bool
  deriving DecidableEq

/-- The keys to sort by, the most significant first. -/
abbrev Order := List SortKey

/-- Reads a sort key; a leading hyphen means descending. -/
def SortKey.read (raw : String) : Except QueryError SortKey :=
  let trimmed := Text.trim raw.toList
  let (field, descending) :=
    match trimmed with
    | '-' :: rest => (rest, true)
    | field => (field, false)
  if field.isEmpty then .error (.badSelector (String.ofList trimmed) .emptySortKey)
  else .ok ⟨String.ofList field, descending⟩

namespace Order

/-- Reads the entries of a list of sort keys. -/
def ofEntries : List Value → Except QueryError Order
  | [] => .ok []
  | .string raw :: entries => do
    let key ← SortKey.read raw
    let keys ← ofEntries entries
    return key :: keys
  | entry :: _ => .error (.badSelector entry.text .orderByEntry)

/-- Reads an order: one sort key or a list of them. -/
def ofValue : Value → Except QueryError Order
  | .null => .ok []
  | .string raw => (SortKey.read raw).map ([·])
  | .array entries => ofEntries entries
  | value => .error (.badSelector value.text .orderByShape)

/-- The place of a kind of value among the kinds. -/
def rank : Option Value → Nat
  | none => 0
  | some .null => 0
  | some (.number _) => 1
  | some (.string _) => 2
  | some (.object _) => 3
  | some (.array _) => 4
  | some (.bool _) => 5

/-- Compares two field values. -/
def compareValues (a b : Option Value) : Ordering :=
  match a, b with
  | some (.number x), some (.number y) => compare x.units y.units
  | some (.string x), some (.string y) => compare x y
  | some (.bool x), some (.bool y) => compare x.toNat y.toNat
  | some (.object x), some (.object y) => compare (Value.object x).text (Value.object y).text
  | some (.array x), some (.array y) => compare (Value.array x).text (Value.array y).text
  | _, _ => compare (rank a) (rank b)

/-- Compares two entities by one key. -/
def compareBy (key : SortKey) (a b : Entity) : Ordering :=
  let ordering := compareValues (a.get? key.field) (b.get? key.field)
  if key.descending then ordering.swap else ordering

/-- Compares two entities: the first key that differs decides. -/
def compareAll : Order → Entity → Entity → Ordering
  | [], _, _ => .eq
  | key :: keys, a, b => (compareBy key a b).then (compareAll keys a b)

/-- Sorts entities; those that compare equal keep their order. -/
def sort (order : Order) (entities : List Entity) : List Entity :=
  entities.mergeSort fun a b => compareAll order a b != .gt

/-- Without a key the entities stay as they are. -/
@[simp] theorem sort_nil (entities : List Entity) : sort [] entities = entities :=
  List.mergeSort_of_pairwise (List.pairwise_of_forall fun _ _ => rfl)

end Order

end LinkedDocs
