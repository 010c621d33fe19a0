import LinkedDocs.Json.Value

/-!
# JSON text as it is written

Reading is done in two steps. This module checks the form of a text and yields a `Literal`: numbers
still as their digits, strings as their units, where an escaped surrogate has not yet found its
partner. Giving the literals a meaning is a second step, `Literal.value?`, which refuses numbers
beyond the finite range, lone surrogates and deep nesting. The two steps are apart because a part
of a text that nobody looks at has to have the right form only.

A text is first cut into tokens (`tokens?`), each with a remainder that is shorter, and the tokens
are folded over a stack of the containers still open.
-/

namespace LinkedDocs.Json

/-- A number as written: sign, digits before and after the point, exponent. -/
structure NumberLiteral where
  negative : Bool
  whole : List Nat
  /-- The digits after the point; none if there is no point. -/
  fraction : List Nat
  exponent : Option Int
  deriving DecidableEq

/-- A unit of a string as written: a character, or one half of a surrogate pair. -/
inductive StringUnit where
  | char (c : Char)
  | surrogate (unit : Nat)
  deriving DecidableEq

/-- A JSON text as written. -/
inductive Literal where
  | null
  | bool (b : Bool)
  | number (n : NumberLiteral)
  | string (units : List StringUnit)
  | array (items : List Literal)
  | object (members : List (List StringUnit × Literal))

/-! ## Tokens -/

/-- The tokens of a JSON text. -/
inductive Token where
  | openArray | closeArray | openObject | closeObject | comma | colon
  | scalar (value : Literal)

/-- White space between tokens. -/
def isSpace (c : Char) : Bool := c == ' ' || c == '\n' || c == '\t' || c == '\r'

/-- A remainder of `text` that is not longer. -/
abbrev Rest (text : List Char) := { rest : List Char // rest.length ≤ text.length }

/-- The value of a hexadecimal digit. -/
def hexValue? (c : Char) : Option Nat :=
  if '0' ≤ c ∧ c ≤ '9' then some (c.toNat - '0'.toNat)
  else if 'a' ≤ c ∧ c ≤ 'f' then some (c.toNat - 'a'.toNat + 10)
  else if 'A' ≤ c ∧ c ≤ 'F' then some (c.toNat - 'A'.toNat + 10)
  else none

/-- The unit that four hexadecimal digits stand for. -/
def unitOfHex? (a b c d : Char) : Option StringUnit := do
  let n := (((← hexValue? a) * 16 + (← hexValue? b)) * 16 + (← hexValue? c)) * 16 + (← hexValue? d)
  if 0xD800 ≤ n ∧ n ≤ 0xDFFF then return .surrogate n
  return .char (Char.ofNat n)

/-- The character that a one-letter escape stands for. -/
def simpleEscape? : Char → Option Char
  | '"' => some '"'
  | '\\' => some '\\'
  | '/' => some '/'
  | 'b' => some '\x08'
  | 'f' => some '\x0c'
  | 'n' => some '\n'
  | 'r' => some '\r'
  | 't' => some '\t'
  | _ => none

/-- The units of a string up to its closing quote, and what follows it. -/
def stringUnits? : (text : List Char) → Option (List StringUnit × Rest text)
  | [] => none
  | '"' :: rest => some ([], ⟨rest, by simp⟩)
  | '\\' :: 'u' :: a :: b :: c :: d :: rest =>
    match unitOfHex? a b c d, stringUnits? rest with
    | some unit, some (units, ⟨rest', h⟩) =>
      some (unit :: units, ⟨rest', by simp only [List.length_cons]; omega⟩)
    | _, _ => none
  | '\\' :: e :: rest =>
    match simpleEscape? e, stringUnits? rest with
    | some c, some (units, ⟨rest', h⟩) =>
      some (.char c :: units, ⟨rest', by simp only [List.length_cons]; omega⟩)
    | _, _ => none
  | c :: rest =>
    if c.toNat < 0x20 ∨ c = '\\' then none
    else
      match stringUnits? rest with
      | some (units, ⟨rest', h⟩) =>
        some (.char c :: units, ⟨rest', by simp only [List.length_cons]; omega⟩)
      | none => none

/-- The digits at the start of a text, and what follows them. -/
def digits : (text : List Char) → List Nat × Rest text
  | [] => ([], ⟨[], by simp⟩)
  | c :: rest =>
    if c.isDigit then
      let (more, ⟨rest', h⟩) := digits rest
      ((c.toNat - '0'.toNat) :: more, ⟨rest', by simp only [List.length_cons]; omega⟩)
    else ([], ⟨c :: rest, Nat.le_refl _⟩)

/-- The number that decimal digits stand for. -/
def ofDigits (ds : List Nat) : Nat := ds.foldl (fun n d => n * 10 + d) 0

/-- The fraction at the start of a text: a point and at least one digit, or nothing. -/
def fraction? (text : List Char) : Option (List Nat × Rest text) :=
  match text with
  | '.' :: rest =>
    match digits rest with
    | ([], _) => none
    | (ds, ⟨rest', h⟩) => some (ds, ⟨rest', by simp only [List.length_cons]; omega⟩)
  | text => some ([], ⟨text, Nat.le_refl _⟩)

/-- The exponent at the start of a text: a letter, perhaps a sign, at least one digit; or nothing.
-/
def exponent? (text : List Char) : Option (Option Int × Rest text) :=
  match text with
  | [] => some (none, ⟨[], Nat.le_refl _⟩)
  | e :: rest =>
    if e = 'e' ∨ e = 'E' then
      let (negative, ⟨unsigned, h₁⟩) : Bool × Rest rest :=
        match rest with
        | '+' :: r => (false, ⟨r, by simp⟩)
        | '-' :: r => (true, ⟨r, by simp⟩)
        | r => (false, ⟨r, Nat.le_refl _⟩)
      match digits unsigned with
      | ([], _) => none
      | (ds, ⟨rest', h₂⟩) =>
        let n : Int := ofDigits ds
        some (some (if negative then -n else n), ⟨rest', by simp only [List.length_cons]; omega⟩)
    else some (none, ⟨e :: rest, Nat.le_refl _⟩)

/-- The number at the start of a text that follows a sign, if any: no superfluous zero in front. -/
def number? (negative : Bool) (text : List Char) :
    Option (NumberLiteral × { rest : List Char // rest.length < text.length }) :=
  match text with
  | [] => none
  | c :: rest =>
    if c.isDigit then
      let (more, ⟨rest₁, h₁⟩) := digits rest
      if c = '0' ∧ more ≠ [] then none
      else
        match fraction? rest₁ with
        | none => none
        | some (fraction, ⟨rest₂, h₂⟩) =>
          match exponent? rest₂ with
          | none => none
          | some (exponent, ⟨rest₃, h₃⟩) =>
            some (⟨negative, (c.toNat - '0'.toNat) :: more, fraction, exponent⟩,
              ⟨rest₃, by simp only [List.length_cons]; omega⟩)
    else none

/-- The token at the start of a text, and what follows it. -/
def token? : (text : List Char) →
    Option (Token × { rest : List Char // rest.length < text.length })
  | '[' :: rest => some (.openArray, ⟨rest, by simp⟩)
  | ']' :: rest => some (.closeArray, ⟨rest, by simp⟩)
  | '\x7b' :: rest => some (.openObject, ⟨rest, by simp⟩)
  | '\x7d' :: rest => some (.closeObject, ⟨rest, by simp⟩)
  | ',' :: rest => some (.comma, ⟨rest, by simp⟩)
  | ':' :: rest => some (.colon, ⟨rest, by simp⟩)
  | 'n' :: 'u' :: 'l' :: 'l' :: rest =>
    some (.scalar .null, ⟨rest, by simp only [List.length_cons]; omega⟩)
  | 't' :: 'r' :: 'u' :: 'e' :: rest =>
    some (.scalar (.bool true), ⟨rest, by simp only [List.length_cons]; omega⟩)
  | 'f' :: 'a' :: 'l' :: 's' :: 'e' :: rest =>
    some (.scalar (.bool false), ⟨rest, by simp only [List.length_cons]; omega⟩)
  | '"' :: rest =>
    match stringUnits? rest with
    | some (units, ⟨rest', h⟩) =>
      some (.scalar (.string units), ⟨rest', by simp only [List.length_cons]; omega⟩)
    | none => none
  | '-' :: rest =>
    match number? true rest with
    | some (n, ⟨rest', h⟩) =>
      some (.scalar (.number n), ⟨rest', by simp only [List.length_cons]; omega⟩)
    | none => none
  | text =>
    match number? false text with
    | some (n, rest) => some (.scalar (.number n), rest)
    | none => none

/-- All tokens of a text, if it consists of tokens and white space. -/
def tokens? (text : List Char) : Option (List Token) :=
  match text with
  | [] => some []
  | c :: rest =>
    if isSpace c then tokens? rest
    else
      match token? (c :: rest) with
      | some (token, ⟨rest', _⟩) => (tokens? rest').map (token :: ·)
      | none => none
termination_by text.length
decreasing_by
  · exact Nat.lt_succ_self _
  · assumption

/-! ## Containers -/

/-- A container that is still open, with what it holds so far, last first. -/
inductive Frame where
  | array (items : List Literal)
  | object (members : List (List StringUnit × Literal)) (name : List StringUnit)
  deriving Inhabited

/-- What may come next. -/
inductive Expecting where
  /-- A value; `first` if the array may also be closed. -/
  | value (first : Bool)
  /-- The name of a member; `first` if the object may also be closed. -/
  | name (first : Bool)
  /-- The colon after this name. -/
  | colon (name : List StringUnit)
  /-- A comma or the end of the innermost container. -/
  | next
  /-- Nothing more: this is the whole text. -/
  | nothing (value : Literal)

/-- The open containers, innermost first, and what may come next. -/
structure Nesting where
  frames : List Frame
  expecting : Expecting

namespace Nesting

/-- Before the first token. -/
def start : Nesting := ⟨[], .value false⟩

/-- A value has been completed. -/
def complete (frames : List Frame) (value : Literal) : Nesting :=
  match frames with
  | [] => ⟨[], .nothing value⟩
  | .array items :: outer => ⟨.array (value :: items) :: outer, .next⟩
  | .object members name :: outer => ⟨.object ((name, value) :: members) name :: outer, .next⟩

/-- Takes one token, if it may come here. -/
def step? (n : Nesting) (token : Token) : Option Nesting :=
  match n.expecting, token with
  | .value _, .scalar value => some (complete n.frames value)
  | .value _, .openArray => some ⟨.array [] :: n.frames, .value true⟩
  | .value _, .openObject => some ⟨.object [] [] :: n.frames, .name true⟩
  | .value true, .closeArray =>
    match n.frames with
    | .array [] :: outer => some (complete outer (.array []))
    | _ => none
  | .name _, .scalar (.string name) => some ⟨n.frames, .colon name⟩
  | .name true, .closeObject =>
    match n.frames with
    | .object [] _ :: outer => some (complete outer (.object []))
    | _ => none
  | .colon name, .colon =>
    match n.frames with
    | .object members _ :: outer => some ⟨.object members name :: outer, .value false⟩
    | _ => none
  | .next, .comma =>
    match n.frames with
    | .array items :: outer => some ⟨.array items :: outer, .value false⟩
    | .object members name :: outer => some ⟨.object members name :: outer, .name false⟩
    | [] => none
  | .next, .closeArray =>
    match n.frames with
    | .array items :: outer => some (complete outer (.array items.reverse))
    | _ => none
  | .next, .closeObject =>
    match n.frames with
    | .object members _ :: outer => some (complete outer (.object members.reverse))
    | _ => none
  | _, _ => none

end Nesting

/-- The literal that a text consists of. -/
def Literal.ofText? (text : String) : Option Literal :=
  match (tokens? text.toList).bind fun tokens => tokens.foldlM Nesting.step? Nesting.start with
  | some ⟨[], .nothing value⟩ => some value
  | _ => none

end LinkedDocs.Json
