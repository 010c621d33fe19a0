import LinkedDocs.Glob.Class

/-!
# Glob patterns and what they match

A pattern is a sequence of parts. `*` stands for any run of characters and `?` for any one
character, line feeds excepted; a class stands for one of its characters; an alternation `{a,b}` for
one of its branches, which are sequences again; everything else for itself. Case is ignored and a
pattern has to match the whole of a text.

Matching works on rows of marks, one mark for each position of the text, before the first character
and after each: a position is marked if the parts so far can match what lies before it. A part turns
a row into the next in one sweep, so the work grows with the length of the pattern times that of the
text, however many `*` the pattern has.
-/

namespace LinkedDocs.Glob

/-- One part of a pattern. -/
inductive Part where
  | literal (c : Char)
  | anyOne
  | anyRun
  | oneOf (chars : CharClass)
  | alternation (branches : List (List Part))

/-- Whether each position of a text can be reached. -/
abbrev Marks := List Bool

/-- Only the position before the first character. -/
def atStart (text : List Char) : Marks := true :: text.map fun _ => false

/-- No position. -/
def nowhere (text : List Char) : Marks := false :: text.map fun _ => false

/-- The positions right after a marked one and a character that passes a test. -/
def afterChar (test : Char → Bool) (text : List Char) (marks : Marks) : Marks :=
  false :: List.zipWith (fun c mark => mark && test c) text marks

/-- The marked positions and those behind them without a line feed between; `reached` tells that
the first position is one of the latter. -/
def afterRun (reached : Bool) : List Char → Marks → Marks
  | c :: text, mark :: marks =>
    let here := mark || reached
    here :: afterRun (here && c != '\n') text marks
  | [], mark :: _ => [mark || reached]
  | _, [] => []

mutual

/-- The positions that can be reached by a part from marked ones. -/
def Part.advance (text : List Char) : Part → Marks → Marks
  | .literal c, marks => afterChar (Text.sameFolded c) text marks
  | .anyOne, marks => afterChar (· != '\n') text marks
  | .anyRun, marks => afterRun false text marks
  | .oneOf chars, marks => afterChar chars.has text marks
  | .alternation branches, marks => advanceAny text branches marks

/-- The positions that can be reached by one of the branches from marked ones. -/
def advanceAny (text : List Char) : List (List Part) → Marks → Marks
  | [], _ => nowhere text
  | branch :: branches, marks =>
    List.zipWith (· || ·) (advanceAll text branch marks) (advanceAny text branches marks)

/-- The positions that can be reached by all parts in turn from marked ones. -/
def advanceAll (text : List Char) : List Part → Marks → Marks
  | [], marks => marks
  | part :: parts, marks => advanceAll text parts (part.advance text marks)

end

/-- Whether the parts match the whole of a text. -/
def matchesAll (parts : List Part) (text : List Char) : Bool :=
  (advanceAll text parts (atStart text)).getLast? == some true

end LinkedDocs.Glob
