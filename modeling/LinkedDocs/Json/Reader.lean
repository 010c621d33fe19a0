import LinkedDocs.Json.Literal

/-!
# From JSON text to values

A `Literal` has a value if its numbers are finite, its surrogates come in pairs and its containers
nest at most 127 deep. Of the members of an object with one name the last value counts, at the place
of the first.

One name is reserved. An object whose first member has it stands for the value of another JSON text,
which this member holds as a string and which is read by itself; the object must have no other
members. A text held in another is shorter than it, so reading ends.

A number without fraction and exponent is an integer if it fits 64 bits, signed or unsigned; all
others are reals. The significand of a real is its leading digits as long as they fit 64 bits; whole
digits beyond them count as a power of ten and further decimals are dropped.
-/

namespace LinkedDocs.Json

/-- Integers of 64 bits without a sign are below this, `2^64`. -/
abbrev wordLimit : Nat := 0x10000000000000000

/-- Takes digits into a significand while it fits 64 bits, and gives back those left over. -/
def takeSignificand (significand : Nat) : List Nat → Nat × List Nat
  | [] => (significand, [])
  | d :: ds =>
    if significand * 10 + d < wordLimit then takeSignificand (significand * 10 + d) ds
    else (significand, d :: ds)

/-- The number that a literal stands for; none if it is not finite. -/
def NumberLiteral.number? (n : NumberLiteral) : Option Number :=
  let (whole, beyond) := takeSignificand 0 n.whole
  let (significand, dropped) := takeSignificand whole n.fraction
  let decimals := n.fraction.length - dropped.length
  match n.fraction, n.exponent, beyond with
  | [], none, [] =>
    if n.negative then
      if whole = 0 ∨ wordLimit < 2 * whole then (Double.ofDecimal? true whole 0).map .real
      else some (.integer (-(whole : Int)))
    else some (.integer whole)
  | _, exponent, _ =>
    (Double.ofDecimal? n.negative significand
      (exponent.getD 0 + beyond.length - decimals)).map .real

/-- The characters that string units stand for, a surrogate pair being one character. -/
def charsOfUnits? : List StringUnit → Option (List Char)
  | [] => some []
  | .char c :: units => (charsOfUnits? units).map (c :: ·)
  | .surrogate high :: .surrogate low :: units =>
    if high < 0xDC00 ∧ 0xDC00 ≤ low then
      (charsOfUnits? units).map
        (Char.ofNat (0x10000 + (high - 0xD800) * 0x400 + (low - 0xDC00)) :: ·)
    else none
  | .surrogate _ :: _ => none

/-- The string that units stand for. -/
def stringOfUnits? (units : List StringUnit) : Option String :=
  (charsOfUnits? units).map String.ofList

/-- How deep containers may nest. -/
def maxDepth : Nat := 127

/-- The reserved name: the first member of an object has it if the object stands for a text. -/
def heldTextName : String := "$serde_json::private::RawValue"

namespace Literal

/-- The text that an object with these members stands for: none if it has the reserved name but not
the right form, and no text (`some none`) if it is an object like others. -/
def heldText? : List (List StringUnit × Literal) → Option (Option String)
  | (units, literal) :: members =>
    if stringOfUnits? units = some heldTextName then
      match literal, members with
      | .string text, [] => (stringOfUnits? text).map some
      | _, _ => none
    else some none
  | [] => some none

mutual

/-- The value of a literal whose containers nest at most `depth` deep; how the texts that it holds
are read is a parameter. -/
def valueWithin? (readHeld : String → Option Value) (depth : Nat) : Literal → Option Value
  | .null => some .null
  | .bool b => some (.bool b)
  | .number n => n.number?.map .number
  | .string units => (stringOfUnits? units).map .string
  | .array items =>
    if depth = 0 then none else (itemsWithin? readHeld (depth - 1) items).map .array
  | .object members =>
    if depth = 0 then none
    else
      match heldText? members with
      | none => none
      | some (some text) => readHeld text
      | some none =>
        (membersWithin? readHeld (depth - 1) members).map fun pairs =>
          .ofFields (Dict.ofList pairs)

/-- The values of items. -/
def itemsWithin? (readHeld : String → Option Value) (depth : Nat) :
    List Literal → Option (List Value)
  | [] => some []
  | item :: items => do
    let value ← valueWithin? readHeld depth item
    let values ← itemsWithin? readHeld depth items
    return value :: values

/-- The names and values of members. -/
def membersWithin? (readHeld : String → Option Value) (depth : Nat) :
    List (List StringUnit × Literal) → Option (List (String × Value))
  | [] => some []
  | (units, literal) :: members => do
    let name ← stringOfUnits? units
    let value ← valueWithin? readHeld depth literal
    let pairs ← membersWithin? readHeld depth members
    return (name, value) :: pairs

end

/-- The value of a literal. -/
def value? (readHeld : String → Option Value) (literal : Literal) : Option Value :=
  valueWithin? readHeld maxDepth literal

end Literal

end LinkedDocs.Json

namespace LinkedDocs

/-- The value that a JSON text stands for. Only shorter texts can be held in it. -/
def Value.ofText? (text : String) : Option Value :=
  (Json.Literal.ofText? text).bind
    (Json.Literal.value? fun held => if held.length < text.length then ofText? held else none)
termination_by text.length

end LinkedDocs
