import LinkedDocs.Glob.Limits
import LinkedDocs.Store.Error

/-!
# Reading glob patterns

A pattern is read one character at a time. The state holds where the reader is (outside, after a
backslash, in a class) and the alternations still open; no step fails, so whether a pattern is sound
shows at its end: it must not stop after a backslash, inside a class or inside an alternation, and
no class may have held a range whose ends are in the wrong order. What is sound so far
(`partsOf source`) must then keep within the limits on depth and weight.

Outside classes a backslash makes the next character stand for itself, and a comma or a closing
brace outside alternations stands for itself too. Inside a class only the closing bracket is
special, and not as the first character; `!` or `^` right after the opening bracket negates the
class.
-/

namespace LinkedDocs.Glob

/-- The characters that make a text a pattern. -/
def isMeta (c : Char) : Bool := c == '*' || c == '?' || c == '[' || c == '\x7b'

/-- Whether a text holds a character that makes it a pattern. -/
def isGlob (text : String) : Bool := text.toList.any isMeta

/-- An alternation that is being read: its finished branches and the current one, each last first.
-/
structure Branches where
  finished : List (List Part)
  current : List Part

namespace Branches

/-- No branch is finished and the current one is empty. -/
def start : Branches := ⟨[], []⟩

/-- Adds a part to the current branch. -/
def add (b : Branches) (part : Part) : Branches := { b with current := part :: b.current }

/-- Finishes the current branch. -/
def split (b : Branches) : Branches := ⟨b.current.reverse :: b.finished, []⟩

/-- All branches. -/
def all (b : Branches) : List (List Part) := b.split.finished.reverse

end Branches

/-- Where the reader is. -/
inductive Mode where
  | outside
  /-- Right after a backslash. -/
  | escaped
  /-- Right after the bracket that opens a class. -/
  | classStart
  /-- In a class, with its body so far, last first. -/
  | inClass (negated : Bool) (body : List Char)

/-- The state of the reader: the innermost level, the levels around it, and whether a class was
malformed. -/
structure Reading where
  mode : Mode
  level : Branches
  outer : List Branches
  reversedRange : Bool

namespace Reading

/-- Before the first character. -/
def start : Reading := ⟨.outside, .start, [], false⟩

/-- Adds a part and goes on outside classes. -/
def add (r : Reading) (part : Part) : Reading :=
  { r with mode := .outside, level := r.level.add part }

/-- Takes one character outside classes and escapes. -/
def stepOutside (r : Reading) (c : Char) : Reading :=
  match c, r.outer with
  | '*', _ => r.add .anyRun
  | '?', _ => r.add .anyOne
  | '\\', _ => { r with mode := .escaped }
  | '[', _ => { r with mode := .classStart }
  | '\x7b', outer => { r with level := .start, outer := r.level :: outer }
  | ',', _ :: _ => { r with level := r.level.split }
  | '\x7d', around :: outer =>
    { r with level := around.add (.alternation r.level.all), outer }
  | c, _ => r.add (.literal c)

/-- Takes one character in a class whose body so far is given. -/
def stepInClass (r : Reading) (negated : Bool) (body : List Char) (c : Char) : Reading :=
  if c = ']' ∧ body ≠ [] then
    match CharClass.ofBody? negated body.reverse with
    | some chars => r.add (.oneOf chars)
    | none => { r with mode := .outside, reversedRange := true }
  else { r with mode := .inClass negated (c :: body) }

/-- Takes one character. -/
def step (r : Reading) (c : Char) : Reading :=
  match r.mode with
  | .outside => r.stepOutside c
  | .escaped => r.add (.literal c)
  | .classStart =>
    if c = '!' ∨ c = '^' then { r with mode := .inClass true [] } else r.stepInClass false [] c
  | .inClass negated body => r.stepInClass negated body c

/-- The parts that have been read, if the pattern may end here. -/
def finish (r : Reading) : Except PatternFault (List Part) :=
  match r.mode with
  | .escaped => .error .trailingEscape
  | .classStart => .error .unclosedClass
  | .inClass _ _ => .error .unclosedClass
  | .outside =>
    if r.outer ≠ [] then .error .unclosedAlternation
    else if r.reversedRange then .error .reversedRange
    else .ok r.level.current.reverse

end Reading

/-- The parts of a pattern, however large it is. -/
def partsOf (source : String) : Except PatternFault (List Part) :=
  (source.toList.foldl Reading.step .start).finish

/-- Refuses what is too deep or too heavy. -/
def withinLimits (parts : List Part) : Except PatternFault (List Part) :=
  if maxDepth < depth parts then .error .tooDeep
  else if maxWeight < weight parts then .error .tooLarge
  else .ok parts

/-- The parts of a pattern. -/
def read (source : String) : Except PatternFault (List Part) :=
  (partsOf source).bind withinLimits

theorem withinLimits_eq_ok_iff {parts parts' : List Part} :
    withinLimits parts = .ok parts' ↔
      parts = parts' ∧ depth parts ≤ maxDepth ∧ weight parts ≤ maxWeight := by
  unfold withinLimits
  split
  · simp; omega
  · split
    · simp; omega
    · simp; omega

/-- A pattern can be read if it is well formed and within the limits. -/
theorem read_eq_ok_iff {source : String} {parts : List Part} :
    read source = .ok parts ↔
      partsOf source = .ok parts ∧ depth parts ≤ maxDepth ∧ weight parts ≤ maxWeight := by
  unfold read
  cases h : partsOf source with
  | error fault => simp [Except.bind]
  | ok found =>
    simp only [Except.bind, withinLimits_eq_ok_iff, Except.ok.injEq]
    constructor
    · rintro ⟨rfl, hd, hw⟩
      exact ⟨rfl, hd, hw⟩
    · rintro ⟨rfl, hd, hw⟩
      exact ⟨rfl, hd, hw⟩

/-- A pattern that has been read. Patterns are equal if their sources are. -/
structure Pattern where
  source : String
  parts : List Part
  read_eq : read source = .ok parts

namespace Pattern

theorem ext {a b : Pattern} (h : a.source = b.source) : a = b := by
  obtain ⟨source, parts, read_eq⟩ := a
  obtain ⟨source', parts', read_eq'⟩ := b
  cases h
  have : parts = parts' := by simpa using read_eq.symm.trans read_eq'
  cases this
  rfl

instance : DecidableEq Pattern := fun a b =>
  if h : a.source = b.source then .isTrue (ext h) else .isFalse fun e => h (e ▸ rfl)

/-- The pattern with this source. -/
def ofSource (source : String) : Except PatternFault Pattern :=
  match h : read source with
  | .ok parts => .ok ⟨source, parts, h⟩
  | .error fault => .error fault

theorem ofSource_eq_ok_iff {source : String} {p : Pattern} :
    ofSource source = .ok p ↔ p.source = source := by
  constructor
  · intro h
    unfold ofSource at h
    split at h
    · cases h
      rfl
    · cases h
  · rintro rfl
    unfold ofSource
    split
    · exact congrArg Except.ok (ext rfl)
    · next fault h =>
      rw [p.read_eq] at h
      cases h

theorem ofSource_eq_error_iff {source : String} {fault : PatternFault} :
    ofSource source = .error fault ↔ read source = .error fault := by
  unfold ofSource
  split
  · next parts h => simp [h]
  · next fault' h => simp [h]

/-- Whether the pattern matches the whole of a text, ignoring case. -/
def isMatch (p : Pattern) (text : String) : Bool := matchesAll p.parts text.toList

end Pattern

end LinkedDocs.Glob
