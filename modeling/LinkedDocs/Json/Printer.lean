import LinkedDocs.Json.Value
import LinkedDocs.Decimal.Shortest

/-!
# The text of a JSON value

Compact text: no spaces, members in their order, characters outside ASCII as they are. In strings
the quote, the backslash and the controls are escaped, the common controls by a letter and the
others by four hexadecimal digits.
-/

namespace LinkedDocs

/-- The text of a number: integers in decimal, reals by their shortest decimal. -/
def Number.text : Number → String
  | .integer n => toString n
  | .real x => x.text

namespace Json

/-- A digit below 16. -/
def hexDigit (n : Nat) : Char := Nat.digitChar (n % 16)

/-- How a character is written inside a string. -/
def escapedChar (c : Char) : List Char :=
  match c with
  | '"' => ['\\', '"']
  | '\\' => ['\\', '\\']
  | '\n' => ['\\', 'n']
  | '\r' => ['\\', 'r']
  | '\t' => ['\\', 't']
  | '\x08' => ['\\', 'b']
  | '\x0c' => ['\\', 'f']
  | _ =>
    if c.toNat < 0x20 then ['\\', 'u', '0', '0', hexDigit (c.toNat / 16), hexDigit c.toNat] else [c]

/-- A string between quotes. -/
def stringText (s : String) : List Char := '"' :: s.toList.flatMap escapedChar ++ ['"']

end Json

namespace Value

mutual

/-- The characters of the compact text. -/
def chars : Value → List Char
  | .null => ['n', 'u', 'l', 'l']
  | .bool true => ['t', 'r', 'u', 'e']
  | .bool false => ['f', 'a', 'l', 's', 'e']
  | .number n => n.text.toList
  | .string s => Json.stringText s
  | .array [] => ['[', ']']
  | .array (item :: items) => '[' :: item.chars ++ moreItems items
  | .object [] => ['\x7b', '\x7d']
  | .object ((name, value) :: members) =>
    '\x7b' :: Json.stringText name ++ ':' :: value.chars ++ moreMembers members

/-- The items after the first, up to the closing bracket. -/
def moreItems : List Value → List Char
  | [] => [']']
  | item :: items => ',' :: item.chars ++ moreItems items

/-- The members after the first, up to the closing brace. -/
def moreMembers : List (String × Value) → List Char
  | [] => ['\x7d']
  | (name, value) :: members =>
    ',' :: Json.stringText name ++ ':' :: value.chars ++ moreMembers members

end

/-- The compact text of a value. -/
def text (v : Value) : String := String.ofList v.chars

/-- The text by which scalars are compared: a string is its own, a number has that of its JSON
form. Other values have none. -/
def scalarText? : Value → Option String
  | .string s => some s
  | .number n => some n.text
  | _ => none

end Value

end LinkedDocs
