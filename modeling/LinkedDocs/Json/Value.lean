import LinkedDocs.Dict
import LinkedDocs.Decimal.Double
import LinkedDocs.Sorted

/-!
# JSON values

Documents are schemaless, so one dynamic type stands for everything a field can hold. Objects keep
the order in which their members were written. Integers and reals are different values even where
they are numerically equal; of the reals the two zeros are equal.

`Value.same` is the equality of the engine: order of members does not matter, order of items does.
It is equality of `Value.normal`, where members are sorted by name and zero has no sign, so it is an
equivalence by construction.
-/

namespace LinkedDocs

/-- A number: integers have no fraction and no exponent in their text, all others are reals. -/
inductive Number where
  | integer (n : Int)
  | real (x : Double)
  deriving DecidableEq

namespace Number

/-- The number in units of `2^-1074`; an integer is first rounded to 53 significant bits. -/
def units : Number → Int
  | .integer n => Double.unitsOfInt n
  | .real x => x.units

/-- The number as a count: an integer that is not negative. -/
def count? : Number → Option Nat
  | .integer (.ofNat n) => some n
  | _ => none

/-- The number with zero made positive. -/
def unsignedZero : Number → Number
  | .integer n => .integer n
  | .real x => .real x.unsignedZero

end Number

/-- A JSON value. The members of an object are in the order of writing. -/
inductive Value where
  | null
  | bool (b : Bool)
  | number (n : Number)
  | string (s : String)
  | array (items : List Value)
  | object (members : List (String × Value))

/-- The fields of a document. -/
abbrev Fields := Dict Value

namespace Value

instance : Inhabited Value := ⟨.null⟩

/-- The value is `null`. -/
def isNull : Value → Bool
  | .null => true
  | _ => false

/-- The name of the kind of value, as messages give it. -/
def kind : Value → String
  | .null => "null"
  | .bool _ => "boolean"
  | .number _ => "number"
  | .string _ => "string"
  | .array _ => "array"
  | .object _ => "object"

/-- The object with these fields. -/
def ofFields (fields : Fields) : Value := .object fields.entries

/-- The value of an integer. -/
def ofInt (n : Int) : Value := .number (.integer n)

/-! ## Decidable equality -/

mutual

/-- Whether two values are written alike. -/
def eqb : Value → Value → Bool
  | .null, .null => true
  | .bool a, .bool b => a == b
  | .number a, .number b => decide (a = b)
  | .string a, .string b => a == b
  | .array a, .array b => eqbItems a b
  | .object a, .object b => eqbMembers a b
  | _, _ => false

/-- Whether two lists of items are written alike. -/
def eqbItems : List Value → List Value → Bool
  | [], [] => true
  | a :: as, b :: bs => eqb a b && eqbItems as bs
  | _, _ => false

/-- Whether two lists of members are written alike. -/
def eqbMembers : List (String × Value) → List (String × Value) → Bool
  | [], [] => true
  | (ka, a) :: as, (kb, b) :: bs => ka == kb && eqb a b && eqbMembers as bs
  | _, _ => false

end

mutual

theorem eqb_iff : ∀ a b : Value, eqb a b = true ↔ a = b
  | .null, b => by cases b <;> simp [eqb]
  | .bool a, b => by cases b <;> simp [eqb]
  | .number a, b => by cases b <;> simp [eqb]
  | .string a, b => by cases b <;> simp [eqb]
  | .array as, b => by
    cases b with
    | array bs => simp [eqb, eqbItems_iff as bs]
    | _ => simp [eqb]
  | .object as, b => by
    cases b with
    | object bs => simp [eqb, eqbMembers_iff as bs]
    | _ => simp [eqb]

theorem eqbItems_iff : ∀ as bs : List Value, eqbItems as bs = true ↔ as = bs
  | [], bs => by cases bs <;> simp [eqbItems]
  | a :: as, bs => by
    cases bs with
    | nil => simp [eqbItems]
    | cons b bs => simp [eqbItems, eqb_iff a b, eqbItems_iff as bs]

theorem eqbMembers_iff : ∀ as bs : List (String × Value), eqbMembers as bs = true ↔ as = bs
  | [], bs => by cases bs <;> simp [eqbMembers]
  | (ka, a) :: as, bs => by
    cases bs with
    | nil => simp [eqbMembers]
    | cons b bs =>
      obtain ⟨kb, b⟩ := b
      simp [eqbMembers, eqb_iff a b, eqbMembers_iff as bs]

end

instance : DecidableEq Value := fun a b =>
  if h : eqb a b = true then .isTrue ((eqb_iff a b).mp h)
  else .isFalse fun e => h ((eqb_iff a b).mpr e)

/-! ## Equality of the engine -/

mutual

/-- The value with members sorted by name, at every depth, and zero without a sign. Of members with
one name the last counts. -/
def normal : Value → Value
  | .null => .null
  | .bool b => .bool b
  | .number n => .number n.unsignedZero
  | .string s => .string s
  | .array items => .array (normalItems items)
  | .object members => .object (normalMembers members)

/-- The items, each in normal form. -/
def normalItems : List Value → List Value
  | [] => []
  | item :: items => item.normal :: normalItems items

/-- The members sorted by name, each value in normal form. -/
def normalMembers : List (String × Value) → List (String × Value)
  | [] => []
  | (name, value) :: members => insertMissing name value.normal (normalMembers members)

end

/-- Equality of values: members in any order, items in order, the two zeros equal. -/
def same (a b : Value) : Bool := decide (a.normal = b.normal)

theorem same_iff (a b : Value) : a.same b = true ↔ a.normal = b.normal := by simp [same]

@[simp] theorem same_refl (a : Value) : a.same a = true := by simp [same]

theorem same_comm (a b : Value) : a.same b = b.same a := by
  simp [same, eq_comm]

theorem same_trans {a b c : Value} (h₁ : a.same b = true) (h₂ : b.same c = true) :
    a.same c = true := by
  rw [same_iff] at *
  exact h₁.trans h₂

theorem normalItems_eq_map (items : List Value) : normalItems items = items.map normal := by
  induction items with
  | nil => rfl
  | cons item items ih => simp [normalItems, ih]

end Value

end LinkedDocs
