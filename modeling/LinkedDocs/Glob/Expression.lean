import LinkedDocs.Glob.Class

/-!
# Regular expressions

The part of the language of regular expressions that patterns are written in: characters, with a
backslash before those that have a meaning of their own, `.`, classes, `*` after an item, groups
that are not captured, `|` and the two anchors. An expression starts with `(?i)`, so case is
ignored.

It is read one character at a time, with the open groups on a stack. Of items, `*` binds closest,
then come sequences and last alternatives. In a class a backslash goes before the characters with a
meaning there; hyphens are never behind one, so its body, without the backslashes, is that of a
`CharClass`. What is not of this part of the language is refused, and so is a range with its ends
the wrong way round.
-/

namespace LinkedDocs.Glob

/-- A regular expression. -/
inductive Expression where
  | char (c : Char)
  /-- Any character but a line feed. -/
  | anyChar
  | oneOf (chars : CharClass)
  /-- The expression any number of times. -/
  | repeated (e : Expression)
  /-- One of several sequences. -/
  | group (alternatives : List (List Expression))
  | startOfText
  | endOfText

/-- The characters that mean something in a regular expression or may do so. -/
def reserved : List Char :=
  ['\\', '.', '+', '*', '?', '(', ')', '|', '[', ']', '\x7b', '\x7d', '^', '$', '#', '&', '-', '~']

namespace Expression

/-- Alternatives that are being read: the finished ones and the current one, each last first. -/
structure Alternatives where
  finished : List (List Expression)
  current : List Expression

namespace Alternatives

/-- No alternative is finished and the current one is empty. -/
def start : Alternatives := ⟨[], []⟩

/-- Adds an item to the current alternative. -/
def add (a : Alternatives) (e : Expression) : Alternatives := { a with current := e :: a.current }

/-- Finishes the current alternative. -/
def split (a : Alternatives) : Alternatives := ⟨a.current.reverse :: a.finished, []⟩

/-- All alternatives. -/
def all (a : Alternatives) : List (List Expression) := a.split.finished.reverse

end Alternatives

/-- Where the reader is. -/
inductive Place where
  | outside
  /-- Right after a backslash. -/
  | escaped
  /-- Right after an opening parenthesis. -/
  | opening
  /-- After the question mark of a group that is not captured. -/
  | uncaptured
  /-- Right after the bracket that opens a class. -/
  | classStart
  /-- In a class, with its body so far, last first. -/
  | inClass (negated : Bool) (body : List Char)
  /-- Right after a backslash in a class. -/
  | classEscaped (negated : Bool) (body : List Char)
  /-- What has been read is no expression. -/
  | refused

/-- The state of the reader: the innermost level and the levels around it. -/
structure Reader where
  place : Place
  level : Alternatives
  outer : List Alternatives

namespace Reader

/-- Before the first character. -/
def start : Reader := ⟨.outside, .start, []⟩

/-- Adds an item and goes on outside classes. -/
def add (r : Reader) (e : Expression) : Reader :=
  { r with place := .outside, level := r.level.add e }

/-- What has been read is no expression. -/
def refuse (r : Reader) : Reader := { r with place := .refused }

/-- Repeats the last item of the current alternative. -/
def repeatLast (r : Reader) : Reader :=
  match r.level.current with
  | [] => r.refuse
  | e :: rest => { r with level := { r.level with current := .repeated e :: rest } }

/-- Ends the innermost group. -/
def close (r : Reader) : Reader :=
  match r.outer with
  | [] => r.refuse
  | around :: outer => { r with level := around.add (.group r.level.all), outer }

/-- Takes one character outside classes and escapes. -/
def stepOutside (r : Reader) (c : Char) : Reader :=
  if c = '\\' then { r with place := .escaped }
  else if c = '.' then r.add .anyChar
  else if c = '*' then r.repeatLast
  else if c = '(' then { r with place := .opening }
  else if c = ')' then r.close
  else if c = '|' then { r with level := r.level.split }
  else if c = '[' then { r with place := .classStart }
  else if c = '^' then r.add .startOfText
  else if c = '$' then r.add .endOfText
  else if c = '+' ∨ c = '?' ∨ c = '\x7b' ∨ c = '\x7d' ∨ c = ']' then r.refuse
  else r.add (.char c)

/-- Takes one character in a class whose body so far is given. -/
def stepInClass (r : Reader) (negated : Bool) (body : List Char) (c : Char) : Reader :=
  if c = '\\' then { r with place := .classEscaped negated body }
  else if c = ']' ∧ body ≠ [] then
    match CharClass.ofBody? negated body.reverse with
    | some chars => r.add (.oneOf chars)
    | none => r.refuse
  else if c = '[' ∨ c = '&' ∨ c = '~' then r.refuse
  else { r with place := .inClass negated (c :: body) }

/-- Takes one character. -/
def step (r : Reader) (c : Char) : Reader :=
  match r.place with
  | .outside => r.stepOutside c
  | .escaped => if c ∈ reserved then r.add (.char c) else r.refuse
  | .opening => if c = '?' then { r with place := .uncaptured } else r.refuse
  | .uncaptured =>
    if c = ':' then { r with place := .outside, level := .start, outer := r.level :: r.outer }
    else r.refuse
  | .classStart =>
    if c = '^' then { r with place := .inClass true [] } else r.stepInClass false [] c
  | .inClass negated body => r.stepInClass negated body c
  | .classEscaped negated body =>
    if c ∈ reserved ∧ c ≠ '-' then { r with place := .inClass negated (c :: body) } else r.refuse
  | .refused => r

/-- The alternatives that have been read, if the expression may end here. -/
def finish? (r : Reader) : Option (List (List Expression)) :=
  match r.place, r.outer with
  | .outside, [] => some r.level.all
  | _, _ => none

end Reader

/-- The alternatives of an expression that ignores case. -/
def read? : List Char → Option (List (List Expression))
  | '(' :: '?' :: 'i' :: ')' :: text => (text.foldl Reader.step .start).finish?
  | _ => none

end Expression

end LinkedDocs.Glob
