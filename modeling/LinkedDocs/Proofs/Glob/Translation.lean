import LinkedDocs.Proofs.Glob.Faults
import LinkedDocs.Proofs.Glob.Rendering
import Mathlib.Data.List.Infix

/-!
# A pattern and its expression mean the same

Expressions get their meaning here as a search finds them: of a text, with what stands before and
after the span that is matched, because anchors look at the context. Parts have no anchors, so the
expression of a part matches a span in any context that the part stands for
(`Part.matches_expression_iff`), and an expression between anchors is found in a text if it stands
for the whole of it (`finds_wholeText_iff`).

Together with what reading and compiling a pattern gives, this closes the circle from the grammar of
patterns to both ways of matching:

> `compile_iff_describes`: for patterns without adjacent hyphens in classes, what is malformed fails
> in both ways, and everything else matches in both ways just the texts that it describes.
-/

namespace LinkedDocs.Glob

/-! ## The meaning of expressions -/

mutual

/-- The expression matches the span between what stands before and after it. -/
inductive Expression.Matches : Expression → List Char → List Char → List Char → Prop where
  | char {c d before after} : Text.sameFolded c d = true →
    Expression.Matches (.char c) before [d] after
  | anyChar {d before after} : d ≠ '\n' → Expression.Matches .anyChar before [d] after
  | oneOf {k d before after} : CharClass.Admits k d → Expression.Matches (.oneOf k) before [d] after
  | repeatedNone {e before after} : Expression.Matches (.repeated e) before [] after
  | repeatedMore {e before span more after} : Expression.Matches e before span (more ++ after) →
    Expression.Matches (.repeated e) (before ++ span) more after →
    Expression.Matches (.repeated e) before (span ++ more) after
  | group {alternatives alternative before span after} : alternative ∈ alternatives →
    InSequence alternative before span after →
    Expression.Matches (.group alternatives) before span after
  | startOfText {after} : Expression.Matches .startOfText [] [] after
  | endOfText {before} : Expression.Matches .endOfText before [] []

/-- The expressions match the span, one after the other. -/
inductive InSequence : List Expression → List Char → List Char → List Char → Prop where
  | nil {before after} : InSequence [] before [] after
  | cons {e rest before span more after} : Expression.Matches e before span (more ++ after) →
    InSequence rest (before ++ span) more after →
    InSequence (e :: rest) before (span ++ more) after

end

/-- Somewhere in the text one of the alternatives matches. -/
def Finds (alternatives : List (List Expression)) (text : List Char) : Prop :=
  ∃ before span after, text = before ++ span ++ after ∧
    ∃ alternative ∈ alternatives, InSequence alternative before span after

theorem inSequence_nil_iff {before span after : List Char} :
    InSequence [] before span after ↔ span = [] := by
  constructor
  · intro h
    cases h
    rfl
  · rintro rfl
    exact .nil

theorem inSequence_cons_iff {e : Expression} {rest : List Expression}
    {before span after : List Char} :
    InSequence (e :: rest) before span after ↔
      ∃ first more, span = first ++ more ∧ e.Matches before first (more ++ after) ∧
        InSequence rest (before ++ first) more after := by
  constructor
  · intro h
    cases h with
    | cons hfirst hmore => exact ⟨_, _, rfl, hfirst, hmore⟩
  · rintro ⟨first, more, rfl, hfirst, hmore⟩
    exact .cons hfirst hmore

theorem repeated_iff {e : Expression} {before span after : List Char} :
    (Expression.repeated e).Matches before span after ↔
      span = [] ∨ ∃ first more, span = first ++ more ∧ e.Matches before first (more ++ after) ∧
        (Expression.repeated e).Matches (before ++ first) more after := by
  constructor
  · intro h
    cases h with
    | repeatedNone => exact .inl rfl
    | repeatedMore hfirst hmore => exact .inr ⟨_, _, rfl, hfirst, hmore⟩
  · rintro (rfl | ⟨first, more, rfl, hfirst, hmore⟩)
    · exact .repeatedNone
    · exact .repeatedMore hfirst hmore

theorem startOfText_iff {before span after : List Char} :
    Expression.startOfText.Matches before span after ↔ before = [] ∧ span = [] := by
  constructor
  · intro h
    cases h
    exact ⟨rfl, rfl⟩
  · rintro ⟨rfl, rfl⟩
    exact .startOfText

theorem endOfText_iff {before span after : List Char} :
    Expression.endOfText.Matches before span after ↔ span = [] ∧ after = [] := by
  constructor
  · intro h
    cases h
    exact ⟨rfl, rfl⟩
  · rintro ⟨rfl, rfl⟩
    exact .endOfText

/-! ## Parts and their expressions -/

/-- Any character, any number of times: a run without line feeds. -/
theorem repeated_anyChar_iff {before span after : List Char} :
    (Expression.repeated .anyChar).Matches before span after ↔ '\n' ∉ span := by
  induction span generalizing before with
  | nil =>
    rw [repeated_iff]
    simp
  | cons d span ih =>
    rw [repeated_iff]
    constructor
    · rintro (hnil | ⟨first, more, hsplit, hfirst, hmore⟩)
      · cases hnil
      · cases hfirst with
        | anyChar hd =>
          rw [List.singleton_append, List.cons.injEq] at hsplit
          obtain ⟨rfl, rfl⟩ := hsplit
          simp [ih.mp hmore, Ne.symm hd]
    · intro h
      rw [List.mem_cons, not_or] at h
      exact .inr ⟨[d], span, rfl, .anyChar (Ne.symm h.1), ih.mpr h.2⟩

mutual

/-- The expression of a part matches what the part stands for, wherever that is. -/
theorem Part.matches_expression_iff : ∀ (part : Part) {before span after : List Char},
    part.expression.Matches before span after ↔ part.Matches span
  | .literal c, _, span, _ => by
    rw [matches_literal_iff]
    constructor
    · intro h
      cases h with
      | char h => exact ⟨_, rfl, h⟩
    · rintro ⟨d, rfl, h⟩
      exact .char h
  | .anyOne, _, span, _ => by
    rw [matches_anyOne_iff]
    constructor
    · intro h
      cases h with
      | anyChar h => exact ⟨_, rfl, bne_iff_ne.mpr h⟩
    · rintro ⟨d, rfl, h⟩
      exact .anyChar (bne_iff_ne.mp h)
  | .anyRun, _, _, _ => by
    rw [matches_anyRun_iff]
    exact repeated_anyChar_iff
  | .oneOf k, _, _, _ => by
    constructor
    · intro h
      cases h with
      | oneOf h => exact .oneOf h
    · intro h
      cases h with
      | oneOf h => exact .oneOf h
  | .alternation branches, _, _, _ => by
    rw [matches_alternation_iff, ← exists_branchExpressions_iff branches]
    constructor
    · intro h
      cases h with
      | group halternative h => exact ⟨_, halternative, h⟩
    · rintro ⟨alternative, halternative, h⟩
      exact .group halternative h

theorem inSequence_expressions_iff : ∀ (parts : List Part) {before span after : List Char},
    InSequence (expressions parts) before span after ↔ Matches parts span
  | [], _, _, _ => by rw [expressions, inSequence_nil_iff, matches_nil_iff]
  | part :: parts, _, _, _ => by
    rw [expressions, inSequence_cons_iff, matches_cons_iff]
    simp only [part.matches_expression_iff, inSequence_expressions_iff parts]

theorem exists_branchExpressions_iff : ∀ (branches : List (List Part))
    {before span after : List Char},
    (∃ alternative ∈ branchExpressions branches, InSequence alternative before span after) ↔
      ∃ branch ∈ branches, Matches branch span
  | [], _, _, _ => by simp [branchExpressions]
  | branch :: branches, _, _, _ => by
    simp [branchExpressions, inSequence_expressions_iff branch,
      exists_branchExpressions_iff branches]

end

/-- Between anchors, parts are found where they stand for the whole text. -/
theorem finds_wholeText_iff (parts : List Part) (text : List Char) :
    Finds (wholeText parts) text ↔ Matches parts text := by
  have hgroup : ∀ {before span after : List Char},
      (Expression.group [expressions parts]).Matches before span after ↔ Matches parts span := by
    intro before span after
    rw [← @inSequence_expressions_iff parts before span after]
    constructor
    · intro h
      cases h with
      | group halternative h =>
        rw [List.mem_singleton] at halternative
        rw [← halternative]
        exact h
    · exact .group (List.mem_singleton_self _)
  constructor
  · rintro ⟨before, span, after, rfl, alternative, halternative, h⟩
    obtain rfl := List.mem_singleton.mp halternative
    obtain ⟨start, rest, rfl, hstart, h⟩ := inSequence_cons_iff.mp h
    obtain ⟨span, rest, rfl, hspan, h⟩ := inSequence_cons_iff.mp h
    obtain ⟨stop, final, rfl, hstop, h⟩ := inSequence_cons_iff.mp h
    obtain rfl := inSequence_nil_iff.mp h
    obtain ⟨rfl, rfl⟩ := startOfText_iff.mp hstart
    obtain ⟨rfl, rfl⟩ := endOfText_iff.mp hstop
    simpa using hgroup.mp hspan
  · intro h
    refine ⟨[], text, [], by simp, _, List.mem_singleton_self _, ?_⟩
    have hend : InSequence [.endOfText] text [] [] := .cons .endOfText .nil
    have hspan : InSequence [.group [expressions parts], .endOfText] [] text [] := by
      have hwhole : InSequence [.group [expressions parts], .endOfText] [] (text ++ []) [] :=
        .cons (hgroup.mpr h) hend
      rwa [List.append_nil] at hwhole
    show InSequence _ [] ([] ++ text) []
    exact .cons .startOfText hspan

/-! ## What a pattern matches -/

/-- A pattern describes what its parts stand for. -/
theorem describes_iff {source : String} (hapart : ClassHyphensApart source.toList)
    {parts : List Part} (h : partsOf source = .ok parts) (text : List Char) :
    Describes source.toList text ↔ Matches parts text := by
  constructor
  · rintro ⟨pieces, others, htext, hwritten, hmatches⟩
    have hothers := (partsOf_eq_ok_iff_written hapart).mpr ⟨pieces, htext, hwritten⟩
    rw [h] at hothers
    cases hothers
    exact hmatches
  · intro hmatches
    obtain ⟨pieces, htext, hwritten⟩ := (partsOf_eq_ok_iff_written hapart).mp h
    exact ⟨pieces, parts, htext, hwritten, hmatches⟩

theorem compile_fails_iff {source : String} :
    (∃ fault, compile source = .error fault) ↔ ∃ fault, partsOf source = .error fault := by
  rw [compile_eq]
  cases partsOf source with
  | ok parts => simp [Except.map]
  | error fault => simp [Except.map]

/-- **A pattern matches what it describes.** If no class of a pattern has adjacent hyphens, it
cannot be read or compiled if and only if it is malformed; within limits on its size there is no
other reason to refuse it. Otherwise its expression is found in a text, and its parts match the
text, if and only if the pattern describes the whole of the text. -/
theorem compile_iff_describes (source : String) (hapart : ClassHyphensApart source.toList) :
    ((∃ fault, compile source = .error fault) ↔ Malformed source.toList) ∧
      ((∃ fault, partsOf source = .error fault) ↔ Malformed source.toList) ∧
      (¬ Malformed source.toList → ∃ parts expression,
        partsOf source = .ok parts ∧ compile source = .ok expression ∧ ∀ text,
          (Finds expression text ↔ Describes source.toList text) ∧
            (matchesAll parts text = true ↔ Describes source.toList text)) ∧
      ((∃ fault, Pattern.ofSource source = .error fault) ↔
        Malformed source.toList ∨ ∃ parts, partsOf source = .ok parts ∧
          (maxDepth < depth parts ∨ maxWeight < weight parts)) ∧
      ∀ p, Pattern.ofSource source = .ok p → ∀ text,
        p.isMatch text = true ↔ Describes source.toList text.toList := by
  have hfails := partsOf_eq_error_iff hapart
  refine ⟨compile_fails_iff.trans hfails, hfails, ?_, ofSource_fails_iff.trans (by rw [hfails]), ?_⟩
  · intro hsound
    cases hparts : partsOf source with
    | error fault => exact absurd (hfails.mp ⟨fault, hparts⟩) hsound
    | ok parts =>
      refine ⟨parts, wholeText parts, rfl, by rw [compile_eq, hparts]; rfl, fun text => ?_⟩
      rw [describes_iff hapart hparts, finds_wholeText_iff, matchesAll_iff]
      exact ⟨Iff.rfl, Iff.rfl⟩
  · intro p hp text
    have hparts := (read_eq_ok_iff.mp p.read_eq).1
    rw [Pattern.ofSource_eq_ok_iff.mp hp] at hparts
    rw [Pattern.isMatch, matchesAll_iff, describes_iff hapart hparts]

/-- Alternations in alternations, an escaped comma, and a negated class that starts with a closing
bracket. -/
def nestedSource : String := "v\x7ba\\,,[!]b-d]\x7bx,y*\x7d\x7d?"

theorem compile_iff_describes_nested :
    ClassHyphensApart nestedSource.toList ∧ ¬ Malformed nestedSource.toList ∧
      Describes nestedSource.toList "vQYxx!".toList ∧
      ¬ Describes nestedSource.toList "vCYxx!".toList := by
  have hhyphens : HyphensApart nestedSource.toList := by
    unfold HyphensApart
    decide
  have hapart := ClassHyphensApart.of_hyphensApart hhyphens
  obtain ⟨-, hfails, hsound, -, -⟩ := compile_iff_describes nestedSource hapart
  have hparts : partsOf nestedSource = .ok [.literal 'v',
      .alternation [[.literal 'a', .literal ','],
        [.oneOf ⟨true, [.char ']', .range 'b' 'd'], []⟩,
          .alternation [[.literal 'x'], [.literal 'y', .anyRun]]]],
      .anyOne] := by rfl
  have hwell : ¬ Malformed nestedSource.toList := by
    rw [← hfails, hparts]
    rintro ⟨fault, h⟩
    cases h
  obtain ⟨parts, expression, hread, -, hmatches⟩ := hsound hwell
  rw [hparts] at hread
  cases hread
  refine ⟨hapart, hwell, (hmatches _).2.mp (by decide +kernel), fun h => ?_⟩
  have hnot := (hmatches _).2.mpr h
  revert hnot
  decide +kernel

end LinkedDocs.Glob
