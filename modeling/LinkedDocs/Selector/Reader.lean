import LinkedDocs.Selector.Basic
import LinkedDocs.Text.Alphanumeric

/-!
# Reading selectors

The written form of selectors is read one character at a time:

    selector := '*' | ident | '@' ident tail | '@[' ident ']' tail
    tail     := nothing | '.' selector | '(' selector (',' selector)* ')'
    ident    := one or more letters, digits, '_', '-', '$' or ':'

White space may stand before a selector, before a comma or a closing parenthesis, and at the end.
The state of the reader holds the references that are still open, innermost first. `State.step`
refuses a character exactly where the text stops being the beginning of a selector, so an error
tells what was expected and points at the first character that cannot stand there, or at the end.
-/

namespace LinkedDocs

namespace Selector

/-- A reference without what stands below it. -/
structure Head where
  isMany : Bool
  target : String
  deriving DecidableEq

/-- The reference with something below it. A many reference that is written so has no scope. -/
def Head.select (head : Head) (sub : Option Selector) : Selector :=
  if head.isMany then .many head.target sub .unrestricted else .one head.target sub

/-- A reference that is still open. -/
inductive Frame where
  /-- A point has been read, a selector follows. -/
  | chain (head : Head)
  /-- A parenthesis has been read, and these items, last first. -/
  | group (head : Head) (items : List Selector)

/-- The state of the reader. -/
inductive State where
  /-- A selector follows. -/
  | before (frames : List Frame)
  /-- In the name of a field, which is not empty, last character first. -/
  | inField (name : List Char) (frames : List Frame)
  /-- In the target of a reference, last character first. -/
  | inTarget (isMany : Bool) (name : List Char) (frames : List Frame)
  /-- After the closing bracket of a many reference. -/
  | afterTarget (target : String) (frames : List Frame)
  /-- After an item of a group. -/
  | afterItem (head : Head) (items : List Selector) (frames : List Frame)
  /-- After the whole selector. -/
  | finished (selector : Selector)

/-- Whether a character can stand in an identifier. -/
def isIdentChar (c : Char) : Bool :=
  Text.isAlphanumeric c || c == '_' || c == '-' || c == '$' || c == ':'

/-- The name of which the characters are given last first. -/
def nameOf (reversed : List Char) : String := String.ofList reversed.reverse

namespace State

/-- A selector has been completed: chained references around it are completed too, and it becomes an
item of the innermost group, or the whole. -/
def complete (selector : Selector) : List Frame → State
  | [] => .finished selector
  | .chain head :: frames => complete (head.select (some selector)) frames
  | .group head items :: frames => .afterItem head (selector :: items) frames

/-- Takes a character after an item or after the whole selector. -/
def stepAfter : State → Char → Except Expected State
  | .afterItem head items frames, c =>
    if c = ',' then .ok (.before (.group head items :: frames))
    else if c = ')' then .ok (complete (head.select (some (.list items.reverse))) frames)
    else if Text.isBlank c then .ok (.afterItem head items frames)
    else .error .commaOrClosingParenthesis
  | state, c => if Text.isBlank c then .ok state else .error .nothing

/-- Takes a character after the target of a reference. -/
def stepTail (head : Head) (frames : List Frame) (c : Char) : Except Expected State :=
  if c = '.' then .ok (.before (.chain head :: frames))
  else if c = '(' then .ok (.before (.group head [] :: frames))
  else stepAfter (complete (head.select none) frames) c

/-- Takes one character, or tells what was expected instead. -/
def step : State → Char → Except Expected State
  | .before frames, c =>
    if Text.isBlank c then .ok (.before frames)
    else if c = '*' then .ok (complete .wildcard frames)
    else if c = '@' then .ok (.inTarget false [] frames)
    else if isIdentChar c then .ok (.inField [c] frames)
    else .error .identifier
  | .inField name frames, c =>
    if isIdentChar c then .ok (.inField (c :: name) frames)
    else stepAfter (complete (.field (nameOf name)) frames) c
  | .inTarget isMany name frames, c =>
    if isIdentChar c then .ok (.inTarget isMany (c :: name) frames)
    else if name.isEmpty then
      if c = '[' ∧ isMany = false then .ok (.inTarget true [] frames) else .error .identifier
    else if isMany then
      if c = ']' then .ok (.afterTarget (nameOf name) frames) else .error .closingBracket
    else stepTail ⟨false, nameOf name⟩ frames c
  | .afterTarget target frames, c => stepTail ⟨true, target⟩ frames c
  | .afterItem head items frames, c => stepAfter (.afterItem head items frames) c
  | .finished selector, c => stepAfter (.finished selector) c

/-- The selector that has been read, if the text may end here. -/
def finish : State → Except Expected Selector
  | .before _ => .error .identifier
  | .inField name frames => settled (complete (.field (nameOf name)) frames)
  | .inTarget isMany name frames =>
    if name.isEmpty then .error .identifier
    else if isMany then .error .closingBracket
    else settled (complete (.one (nameOf name) none) frames)
  | .afterTarget target frames => settled (complete (Head.select ⟨true, target⟩ none) frames)
  | .afterItem .. => .error .commaOrClosingParenthesis
  | .finished selector => .ok selector
where
  /-- The end of the text after a completed selector. -/
  settled : State → Except Expected Selector
    | .finished selector => .ok selector
    | _ => .error .commaOrClosingParenthesis

/-- Takes characters until one is refused, and gives back what was expected and the text from there
on. -/
def run : State → List Char → Except (Expected × List Char) Selector
  | state, [] => state.finish.mapError (·, [])
  | state, c :: rest =>
    match state.step c with
    | .ok next => run next rest
    | .error expected => .error (expected, c :: rest)

end State

/-- The number of bytes of a text. -/
def byteLength : List Char → Nat
  | [] => 0
  | c :: rest => c.utf8Size + byteLength rest

@[simp] theorem byteLength_append (before rest : List Char) :
    byteLength (before ++ rest) = byteLength before + byteLength rest := by
  induction before with
  | nil => simp [byteLength]
  | cons c before ih => simp [byteLength, ih, Nat.add_assoc]

/-- The error for a text that breaks off before `rest`; the fragment is `rest`, or the whole text if
nothing is left. -/
def breakOff (text : List Char) (expected : Expected) (rest : List Char) : QueryError :=
  .badSelector (String.ofList (if rest.isEmpty then text else rest))
    (.unexpected expected (byteLength text - byteLength rest))

/-- Reads the written form of a selector. -/
def read (text : String) : Except QueryError Selector :=
  (State.run (.before []) text.toList).mapError fun (expected, rest) =>
    breakOff text.toList expected rest

end Selector

end LinkedDocs
