import LinkedDocs.Glob.Expression
import LinkedDocs.Store.Error

/-!
# The regular expression of a pattern

A pattern can be handed on as a regular expression. `render` writes it in one pass over the pattern
and counts the alternations that are open: a comma and a closing brace stand for themselves where
there are none. Characters that mean something in expressions get a backslash; in classes these are
the brackets, the caret, the backslash and the two characters that make operators when they are
doubled. Hyphens are left as they are.

The pass knows nothing of what it writes. It fails where the pattern ends too early; whether ranges
are in order is left to whoever reads the expression (`compile`).
-/

namespace LinkedDocs.Glob

/-- How a character that stands for itself is written in an expression. -/
def escape (c : Char) : List Char := if c ∈ reserved then ['\\', c] else [c]

/-- How a character is written in a class of an expression. -/
def classEscape (c : Char) : List Char :=
  if c ∈ ['\\', '[', ']', '^', '&', '~'] then ['\\', c] else [c]

/-- Where the pass is. -/
inductive RenderingPlace where
  | outside
  /-- Right after a backslash. -/
  | escaped
  /-- Right after the bracket that opens a class. -/
  | classStart
  /-- In a class, which may have no character yet. -/
  | inClass (empty : Bool)

/-- The state of the pass: the alternations that are open, and what has been written. -/
structure Rendering where
  place : RenderingPlace
  depth : Nat
  out : List Char

namespace Rendering

/-- Before the first character. -/
def start : Rendering := ⟨.outside, 0, []⟩

/-- Writes on. -/
def write (r : Rendering) (text : List Char) : Rendering := { r with out := r.out ++ text }

/-- Takes one character outside classes and escapes. -/
def stepOutside (r : Rendering) (c : Char) : Rendering :=
  if c = '*' then r.write ['.', '*']
  else if c = '?' then r.write ['.']
  else if c = '\\' then { r with place := .escaped }
  else if c = '[' then { r.write ['['] with place := .classStart }
  else if c = '\x7b' then { r.write ['(', '?', ':'] with depth := r.depth + 1 }
  else if c = ',' ∧ 0 < r.depth then r.write ['|']
  else if c = '\x7d' ∧ 0 < r.depth then { r.write [')'] with depth := r.depth - 1 }
  else r.write (escape c)

/-- Takes one character in a class. -/
def stepInClass (r : Rendering) (empty : Bool) (c : Char) : Rendering :=
  if c = ']' ∧ empty = false then { r.write [']'] with place := .outside }
  else { r.write (classEscape c) with place := .inClass false }

/-- Takes one character. -/
def step (r : Rendering) (c : Char) : Rendering :=
  match r.place with
  | .outside => r.stepOutside c
  | .escaped => { r.write (escape c) with place := .outside }
  | .classStart =>
    if c = '!' ∨ c = '^' then { r.write ['^'] with place := .inClass true }
    else r.stepInClass true c
  | .inClass empty => r.stepInClass empty c

/-- What has been written, if the pattern may end here. -/
def finish (r : Rendering) : Except PatternFault (List Char) :=
  match r.place with
  | .escaped => .error .trailingEscape
  | .classStart => .error .unclosedClass
  | .inClass _ => .error .unclosedClass
  | .outside => if 0 < r.depth then .error .unclosedAlternation else .ok r.out

end Rendering

/-- The items of a pattern as a regular expression. -/
def render (source : String) : Except PatternFault (List Char) :=
  (source.toList.foldl Rendering.step .start).finish

/-- An expression for the whole of a text, without regard to case. -/
def anchored (text : List Char) : List Char :=
  ['(', '?', 'i', ')', '^', '(', '?', ':'] ++ text ++ [')', '$']

/-- The regular expression of a pattern, as it is read. -/
def compile (source : String) : Except PatternFault (List (List Expression)) := do
  let text ← render source
  match Expression.read? (anchored text) with
  | some expression => .ok expression
  | none => .error .reversedRange

end LinkedDocs.Glob
