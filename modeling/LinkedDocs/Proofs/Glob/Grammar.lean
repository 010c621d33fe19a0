import LinkedDocs.Proofs.Glob.Meaning

/-!
# How patterns are written

The text of a pattern falls into pieces: characters, characters behind a backslash, and classes from
bracket to bracket. Over pieces the grammar is short. Most pieces are a part of their own; the
braces of an alternation enclose branches with commas between them, and a branch is again a sequence
of parts. Inside an alternation a comma or a closing brace never stands for itself, so there is one
way at most to put the pieces together.

`Describes` joins the two halves of what a pattern means: the parts it is written with, and what
parts stand for (`Matches`). `Malformed` lists what a pattern must not be, also by its text alone.
Nothing in these definitions runs; what reading a pattern has to do with them is shown of
`partsOf`. Here it is only shown that every text falls into pieces up to its end
(`exists_pieces`), where a backslash or a class may be left over.
-/

namespace LinkedDocs.Glob

/-! ## Pieces -/

/-- What stands between the bracket of a class and its body. -/
inductive ClassMark where
  | none
  | exclamation
  | caret
  deriving DecidableEq

namespace ClassMark

/-- How the mark is written. -/
def text : ClassMark → List Char
  | .none => []
  | .exclamation => ['!']
  | .caret => ['^']

/-- Both marks negate the class. -/
def negates : ClassMark → Bool
  | .none => false
  | .exclamation => true
  | .caret => true

end ClassMark

/-- What follows the opening bracket of a class and has not closed it: a closing bracket can only be
its first member. -/
structure ClassText where
  mark : ClassMark
  body : List Char
  unmarked : mark = .none → body.head? ≠ some '!' ∧ body.head? ≠ some '^'
  unclosed : ']' ∉ body.tail

/-- The mark and the body. -/
def ClassText.text (k : ClassText) : List Char := k.mark.text ++ k.body

/-- One piece of the text of a pattern. -/
inductive Piece where
  | char (c : Char) (plain : c ≠ '\\' ∧ c ≠ '[')
  | escaped (c : Char)
  | charClass (k : ClassText) (nonempty : k.body ≠ [])

namespace Piece

/-- How the piece is written. -/
def text : Piece → List Char
  | .char c _ => [c]
  | .escaped c => ['\\', c]
  | .charClass k _ => '[' :: k.text ++ [']']

def star : Piece := .char '*' (by decide)

def questionMark : Piece := .char '?' (by decide)

def comma : Piece := .char ',' (by decide)

def opening : Piece := .char '\x7b' (by decide)

def closing : Piece := .char '\x7d' (by decide)

/-- The piece is this character, not behind a backslash and not in a class. -/
def isChar (d : Char) : Piece → Bool
  | .char c _ => c == d
  | _ => false

end Piece

/-- How pieces are written. -/
def textOf (pieces : List Piece) : List Char := pieces.flatMap Piece.text

theorem textOf_append (pieces more : List Piece) :
    textOf (pieces ++ more) = textOf pieces ++ textOf more := List.flatMap_append

theorem textOf_cons (piece : Piece) (pieces : List Piece) :
    textOf (piece :: pieces) = piece.text ++ textOf pieces := List.flatMap_cons

/-! ## The grammar -/

/-- The character has no other meaning, inside an alternation or outside. -/
def StandsForItself (inside : Bool) (c : Char) : Prop :=
  c ∉ ['*', '?', '\x7b'] ∧ (inside = true → c ∉ [',', '\x7d'])

/-- What a character outside classes and escapes can be. -/
theorem standsForItself_or (inside : Bool) (c : Char) :
    StandsForItself inside c ∨ c = '*' ∨ c = '?' ∨ c = '\x7b' ∨
      inside = true ∧ (c = ',' ∨ c = '\x7d') := by
  unfold StandsForItself
  simp only [List.mem_cons, List.not_mem_nil, or_false]
  by_cases hmeaning : c = '*' ∨ c = '?' ∨ c = '\x7b'
  · rcases hmeaning with h | h | h
    · exact .inr (.inl h)
    · exact .inr (.inr (.inl h))
    · exact .inr (.inr (.inr (.inl h)))
  · by_cases hbranch : inside = true ∧ (c = ',' ∨ c = '\x7d')
    · exact .inr (.inr (.inr (.inr hbranch)))
    · exact .inl ⟨hmeaning, fun hinside h => hbranch ⟨hinside, h⟩⟩

mutual

/-- The pieces write one part, given how the bodies of classes are read. -/
inductive WrittenPart (reads : Bool → List Char → CharClass → Prop) :
    Bool → List Piece → Part → Prop where
  | literal {inside c plain} : StandsForItself inside c →
    WrittenPart reads inside [.char c plain] (.literal c)
  | escaped {inside c} : WrittenPart reads inside [.escaped c] (.literal c)
  | anyRun {inside} : WrittenPart reads inside [.star] .anyRun
  | anyOne {inside} : WrittenPart reads inside [.questionMark] .anyOne
  | oneOf {inside text nonempty k} : reads text.mark.negates text.body k →
    WrittenPart reads inside [.charClass text nonempty] (.oneOf k)
  | alternation {inside pieces branches} : WrittenBranches reads pieces branches →
    WrittenPart reads inside (.opening :: pieces ++ [.closing]) (.alternation branches)

/-- The pieces write the parts, one after the other. -/
inductive Written (reads : Bool → List Char → CharClass → Prop) :
    Bool → List Piece → List Part → Prop where
  | nil {inside} : Written reads inside [] []
  | cons {inside pieces part rest parts} : WrittenPart reads inside pieces part →
    Written reads inside rest parts → Written reads inside (pieces ++ rest) (part :: parts)

/-- The pieces write the branches, with commas between them. -/
inductive WrittenBranches (reads : Bool → List Char → CharClass → Prop) :
    List Piece → List (List Part) → Prop where
  | last {pieces parts} : Written reads true pieces parts → WrittenBranches reads pieces [parts]
  | more {pieces parts rest branches} : Written reads true pieces parts →
    WrittenBranches reads rest branches →
    WrittenBranches reads (pieces ++ .comma :: rest) (parts :: branches)

end

/-- The pattern stands for the text. -/
def Describes (source text : List Char) : Prop :=
  ∃ pieces parts, source = textOf pieces ∧ Written CharClass.Written false pieces parts ∧
    Matches parts text

/-- No closing brace among the pieces closes an alternation that was open before them. -/
def NeverClose (pieces : List Piece) : Prop :=
  ∀ first, first <+: pieces →
    first.countP (Piece.isChar '\x7d') ≤ first.countP (Piece.isChar '\x7b')

/-- The pattern ends in a lone backslash, a class or an alternation is not closed, or the ends of a
range are the wrong way round. -/
inductive Malformed : List Char → Prop where
  | loneEscape (pieces : List Piece) : Malformed (textOf pieces ++ ['\\'])
  | unclosedClass (pieces : List Piece) (k : ClassText) : Malformed (textOf pieces ++ '[' :: k.text)
  | unclosedAlternation {before after : List Piece} : NeverClose after →
    Malformed (textOf (before ++ .opening :: after))
  | reversedRange {pieces : List Piece} {k : ClassText} {nonempty : k.body ≠ []} :
    .charClass k nonempty ∈ pieces → HasReversedRange k.body → Malformed (textOf pieces)

/-- No class of the pattern has two hyphens next to each other. -/
def ClassHyphensApart (source : List Char) : Prop :=
  ∀ pieces, source = textOf pieces →
    ∀ k nonempty, Piece.charClass k nonempty ∈ pieces → HyphensApart k.body

/-- Without adjacent hyphens anywhere there are none in classes. -/
theorem ClassHyphensApart.of_hyphensApart {source : List Char} (h : HyphensApart source) :
    ClassHyphensApart source := by
  rintro pieces rfl k nonempty hmem hhyphens
  obtain ⟨before, after, rfl⟩ := List.append_of_mem hmem
  refine h (hhyphens.trans ⟨textOf before ++ '[' :: k.mark.text, ']' :: textOf after, ?_⟩)
  simp [textOf_append, textOf_cons, Piece.text, ClassText.text]

variable {reads reads' : Bool → List Char → CharClass → Prop} {inside : Bool}

/-- A part is a sequence of one. -/
theorem WrittenPart.single {pieces : List Piece} {part : Part}
    (h : WrittenPart reads inside pieces part) : Written reads inside pieces [part] := by
  rw [← List.append_nil pieces]
  exact .cons h .nil

theorem Written.append {pieces more : List Piece} {parts others : List Part}
    (h : Written reads inside pieces parts) (hmore : Written reads inside more others) :
    Written reads inside (pieces ++ more) (parts ++ others) := by
  induction parts generalizing pieces with
  | nil =>
    cases h
    exact hmore
  | cons part parts ih =>
    cases h with
    | cons hpart hrest =>
      rw [List.append_assoc]
      exact .cons hpart (ih hrest)

/-- Whatever is read of a class in the first way is read of it in the second. -/
def ReadsAlike (reads reads' : Bool → List Char → CharClass → Prop) (pieces : List Piece) : Prop :=
  ∀ text nonempty, Piece.charClass text nonempty ∈ pieces →
    ∀ k, reads text.mark.negates text.body k → reads' text.mark.negates text.body k

theorem ReadsAlike.of_subset {pieces more : List Piece} (h : ReadsAlike reads reads' more)
    (hsubset : pieces ⊆ more) : ReadsAlike reads reads' pieces :=
  fun text nonempty hmem => h text nonempty (hsubset hmem)

mutual

theorem WrittenPart.mono : ∀ {inside pieces part}, WrittenPart reads inside pieces part →
    ReadsAlike reads reads' pieces → WrittenPart reads' inside pieces part
  | _, _, _, .literal hc, _ => .literal hc
  | _, _, _, .escaped, _ => .escaped
  | _, _, _, .anyRun, _ => .anyRun
  | _, _, _, .anyOne, _ => .anyOne
  | _, _, _, .oneOf hk, h => .oneOf (h _ _ (List.mem_singleton_self _) _ hk)
  | _, _, _, .alternation hbranches, h =>
    .alternation (hbranches.mono (h.of_subset fun _ hmem =>
      List.mem_append_left _ (List.mem_cons_of_mem _ hmem)))

/-- What is written stays written if classes are read in another way alike. -/
theorem Written.mono : ∀ {inside pieces parts}, Written reads inside pieces parts →
    ReadsAlike reads reads' pieces → Written reads' inside pieces parts
  | _, _, _, .nil, _ => .nil
  | _, _, _, .cons hpart hrest, h =>
    .cons (hpart.mono (h.of_subset (List.subset_append_left _ _)))
      (hrest.mono (h.of_subset (List.subset_append_right _ _)))

theorem WrittenBranches.mono : ∀ {pieces branches}, WrittenBranches reads pieces branches →
    ReadsAlike reads reads' pieces → WrittenBranches reads' pieces branches
  | _, _, .last hparts, h => .last (hparts.mono h)
  | _, _, .more hparts hrest, h =>
    .more (hparts.mono (h.of_subset (List.subset_append_left _ _)))
      (hrest.mono (h.of_subset fun _ hmem =>
        List.mem_append_right _ (List.mem_cons_of_mem _ hmem)))

end

/-! ## Every text falls into pieces -/

/-- What may be left over at the end of a text. -/
inductive Ending : List Char → Prop where
  | none : Ending []
  | escape : Ending ['\\']
  | openClass (k : ClassText) : Ending ('[' :: k.text)

/-- After the opening bracket there may be a mark. -/
theorem exists_mark (text : List Char) :
    ∃ mark body, text = ClassMark.text mark ++ body ∧
      (mark = .none → body.head? ≠ some '!' ∧ body.head? ≠ some '^') := by
  by_cases hexclamation : text.head? = some '!'
  · obtain ⟨body, rfl⟩ := List.head?_eq_some_iff.mp hexclamation
    exact ⟨.exclamation, body, rfl, fun h => ClassMark.noConfusion h⟩
  · by_cases hcaret : text.head? = some '^'
    · obtain ⟨body, rfl⟩ := List.head?_eq_some_iff.mp hcaret
      exact ⟨.caret, body, rfl, fun h => ClassMark.noConfusion h⟩
    · exact ⟨.none, text, rfl, fun _ => ⟨hexclamation, hcaret⟩⟩

/-- A class is closed by the first closing bracket that is not its first member, or not at all. -/
theorem exists_classText (text : List Char) :
    (∃ k : ClassText, k.body ≠ [] ∧ ∃ rest, text = k.text ++ ']' :: rest) ∨
      ∃ k : ClassText, text = k.text := by
  obtain ⟨mark, body, rfl, hunmarked⟩ := exists_mark text
  cases body with
  | nil => exact .inr ⟨⟨mark, [], hunmarked, List.not_mem_nil⟩, rfl⟩
  | cons first more =>
    by_cases hclosed : ']' ∈ more
    · obtain ⟨members, rest, rfl, hmembers⟩ := List.eq_append_cons_of_mem hclosed
      refine .inl ⟨⟨mark, first :: members, hunmarked, hmembers⟩, List.cons_ne_nil _ _, rest, ?_⟩
      simp [ClassText.text]
    · exact .inr ⟨⟨mark, first :: more, hunmarked, hclosed⟩, rfl⟩

theorem exists_pieces (text : List Char) :
    ∃ pieces ending, text = textOf pieces ++ ending ∧ Ending ending := by
  -- one piece more, in front of what the rest of the text falls into
  have hcons : ∀ (piece : Piece) (rest : List Char),
      (∃ pieces ending, rest = textOf pieces ++ ending ∧ Ending ending) →
      ∃ pieces ending, piece.text ++ rest = textOf pieces ++ ending ∧ Ending ending := by
    rintro piece rest ⟨pieces, ending, rfl, hending⟩
    exact ⟨piece :: pieces, ending, by rw [textOf_cons, List.append_assoc], hending⟩
  match text with
  | [] => exact ⟨[], [], rfl, .none⟩
  | c :: text =>
    by_cases hescape : c = '\\'
    · subst hescape
      cases text with
      | nil => exact ⟨[], ['\\'], rfl, .escape⟩
      | cons d text => exact hcons (.escaped d) text (exists_pieces text)
    · by_cases hclass : c = '['
      · subst hclass
        rcases exists_classText text with ⟨k, hbody, rest, htext⟩ | ⟨k, rfl⟩
        · have hpieces := hcons (.charClass k hbody) rest (exists_pieces rest)
          simpa [Piece.text, htext] using hpieces
        · exact ⟨[], '[' :: k.text, rfl, .openClass k⟩
      · exact hcons (.char c ⟨hescape, hclass⟩) text (exists_pieces text)
termination_by text.length
decreasing_by
  all_goals simp_all
  all_goals omega

end LinkedDocs.Glob
