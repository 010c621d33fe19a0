import LinkedDocs.Glob.Basic
import LinkedDocs.Proofs.Glob.Classes

/-!
# What the parts of a pattern stand for

`Part.Matches` and `Matches` are the meaning of parts, one rule for each kind of part: they say of
which texts a part stands for the whole. Matching a text in rows of marks decides this meaning.

What ties the two is what a row says. A position can be reached by parts from a marked one if the
text up to it has an end that the parts match, with a mark where that end begins:

> `advanceAll_iff`: the mark after `before` is set if and only if `before = start ++ span`, with the
> mark after `start` set before and `span` matched.

The first row has the mark in front of the text only, so the last mark of the last row tells whether
the whole text is matched (`matchesAll_iff`).
-/

namespace LinkedDocs.Glob

/-! ## The meaning -/

mutual

/-- The part stands for the text. -/
inductive Part.Matches : Part → List Char → Prop where
  | literal {c d} : Text.sameFolded c d = true → Part.Matches (.literal c) [d]
  | anyOne {d} : d ≠ '\n' → Part.Matches .anyOne [d]
  | anyRun {text} : '\n' ∉ text → Part.Matches .anyRun text
  | oneOf {k d} : CharClass.Admits k d → Part.Matches (.oneOf k) [d]
  | alternation {branches branch text} : branch ∈ branches → Matches branch text →
    Part.Matches (.alternation branches) text

/-- The parts stand for the text, one after the other. -/
inductive Matches : List Part → List Char → Prop where
  | nil : Matches [] []
  | cons {part parts text rest} : Part.Matches part text → Matches parts rest →
    Matches (part :: parts) (text ++ rest)

end

theorem matches_nil_iff (text : List Char) : Matches [] text ↔ text = [] := by
  constructor
  · intro h
    cases h
    rfl
  · rintro rfl
    exact .nil

theorem matches_cons_iff (part : Part) (parts : List Part) (text : List Char) :
    Matches (part :: parts) text ↔
      ∃ first rest, text = first ++ rest ∧ part.Matches first ∧ Matches parts rest := by
  constructor
  · intro h
    cases h with
    | cons hfirst hrest => exact ⟨_, _, rfl, hfirst, hrest⟩
  · rintro ⟨first, rest, rfl, hfirst, hrest⟩
    exact .cons hfirst hrest

theorem Matches.append {parts more : List Part} {text rest : List Char} (h : Matches parts text)
    (hmore : Matches more rest) : Matches (parts ++ more) (text ++ rest) := by
  induction parts generalizing text with
  | nil =>
    rw [matches_nil_iff] at h
    subst h
    exact hmore
  | cons part parts ih =>
    obtain ⟨first, second, rfl, hfirst, hsecond⟩ := (matches_cons_iff part parts text).mp h
    rw [List.append_assoc]
    exact .cons hfirst (ih hsecond)

/-! ## Rows of marks -/

/-- There is a mark after as many characters. -/
def Marked (marks : Marks) (count : Nat) : Prop := marks[count]? = some true

/-- A row has a mark for each position of the text. -/
def IsRow (text : List Char) (marks : Marks) : Prop := marks.length = text.length + 1

theorem isRow_afterChar (test : Char → Bool) {text : List Char} {marks : Marks}
    (h : IsRow text marks) : IsRow text (afterChar test text marks) := by
  unfold IsRow at *
  unfold afterChar
  rw [List.length_cons, List.length_zipWith]
  omega

theorem isRow_afterRun {text : List Char} : ∀ {reached : Bool} {marks : Marks}, IsRow text marks →
    IsRow text (afterRun reached text marks) := by
  unfold IsRow
  induction text with
  | nil =>
    intro reached marks h
    cases marks with
    | nil => cases h
    | cons mark marks => rfl
  | cons c text ih =>
    intro reached marks h
    cases marks with
    | nil => cases h
    | cons mark marks =>
      show (afterRun _ text marks).length + 1 = _
      rw [ih (by simpa using h)]
      rfl

mutual

theorem Part.isRow_advance {text : List Char} : ∀ (part : Part) {marks : Marks},
    IsRow text marks → IsRow text (part.advance text marks)
  | .literal _, _, h => isRow_afterChar _ h
  | .anyOne, _, h => isRow_afterChar _ h
  | .anyRun, _, h => isRow_afterRun h
  | .oneOf _, _, h => isRow_afterChar _ h
  | .alternation branches, _, h => isRow_advanceAny branches h

theorem isRow_advanceAny {text : List Char} : ∀ (branches : List (List Part)) {marks : Marks},
    IsRow text marks → IsRow text (advanceAny text branches marks)
  | [], _, _ => by
    show (nowhere text).length = _
    simp [nowhere]
  | branch :: branches, marks, h => by
    show (List.zipWith _ (advanceAll text branch marks) (advanceAny text branches marks)).length = _
    rw [List.length_zipWith, isRow_advanceAll branch h, isRow_advanceAny branches h, Nat.min_self]

theorem isRow_advanceAll {text : List Char} : ∀ (parts : List Part) {marks : Marks},
    IsRow text marks → IsRow text (advanceAll text parts marks)
  | [], _, h => h
  | part :: parts, _, h => isRow_advanceAll parts (part.isRow_advance h)

end

theorem not_marked_map (text : List Char) (count : Nat) :
    ¬ Marked (text.map fun _ => false) count := by
  intro h
  obtain ⟨c, -, hc⟩ := List.mem_map.mp (List.mem_of_getElem? h)
  cases hc

theorem not_marked_nowhere (text : List Char) (count : Nat) : ¬ Marked (nowhere text) count := by
  cases count with
  | zero =>
    intro h
    cases h
  | succ count => exact not_marked_map text count

/-- Where one of two rows has a mark. -/
theorem marked_or_iff {text before after : List Char} {marks marks' : Marks}
    (htext : text = before ++ after) (h : IsRow text marks) (h' : IsRow text marks') :
    Marked (List.zipWith (· || ·) marks marks') before.length ↔
      Marked marks before.length ∨ Marked marks' before.length := by
  have hlength : before.length < text.length + 1 := by
    rw [htext, List.length_append]
    omega
  unfold Marked
  rw [List.getElem?_zipWith, List.getElem?_eq_getElem (by rw [h]; exact hlength),
    List.getElem?_eq_getElem (by rw [h']; exact hlength)]
  simp

/-- A character that passes the test leads on from a mark. -/
theorem marked_afterChar_iff {test : Char → Bool} {text before after : List Char} {marks : Marks}
    (htext : text = before ++ after) (h : IsRow text marks) :
    Marked (afterChar test text marks) before.length ↔
      ∃ start c, before = start ++ [c] ∧ Marked marks start.length ∧ test c = true := by
  rcases List.eq_nil_or_concat before with rfl | ⟨start, c, hbefore⟩
  · simp [Marked, afterChar]
  · rw [List.concat_eq_append] at hbefore
    subst hbefore
    have hchar : text[start.length]? = some c := by
      rw [htext, List.append_assoc, List.getElem?_append_right (Nat.le_refl _)]
      simp
    have hlength : start.length < marks.length := by
      rw [h, htext, List.length_append, List.length_append]
      omega
    unfold Marked afterChar
    rw [List.length_append, List.length_singleton, List.getElem?_cons_succ, List.getElem?_zipWith,
      hchar, List.getElem?_eq_getElem hlength]
    show some (marks[start.length] && test c) = some true ↔ _
    rw [Option.some.injEq, Bool.and_eq_true]
    constructor
    · rintro ⟨hmark, hc⟩
      exact ⟨start, c, rfl, (List.getElem?_eq_getElem hlength).trans (congrArg some hmark), hc⟩
    · rintro ⟨start', c', hsplit, hmark, hc⟩
      obtain ⟨rfl, hsame⟩ := List.append_inj' hsplit rfl
      cases hsame
      exact ⟨Option.some.inj ((List.getElem?_eq_getElem hlength).symm.trans hmark), hc⟩

theorem exists_split_nil {p : List Char → List Char → Prop} :
    (∃ start span, [] = start ++ span ∧ p start span) ↔ p [] [] := by
  constructor
  · rintro ⟨start, span, hsplit, h⟩
    obtain ⟨rfl, rfl⟩ := List.append_eq_nil_iff.mp hsplit.symm
    exact h
  · intro h
    exact ⟨[], [], rfl, h⟩

/-- A run leads on from a mark up to the next line feed. -/
theorem marked_afterRun_iff {text : List Char} : ∀ {before after : List Char} {marks : Marks}
    (reached : Bool), text = before ++ after → IsRow text marks →
    (Marked (afterRun reached text marks) before.length ↔
      (∃ start span, before = start ++ span ∧ Marked marks start.length ∧ '\n' ∉ span) ∨
        reached = true ∧ '\n' ∉ before) := by
  induction text with
  | nil =>
    intro before after marks reached htext h
    obtain ⟨rfl, -⟩ := List.append_eq_nil_iff.mp htext.symm
    cases marks with
    | nil => cases h
    | cons mark marks =>
      rw [exists_split_nil]
      simp [Marked, afterRun]
  | cons c text ih =>
    intro before after marks reached htext h
    cases marks with
    | nil => cases h
    | cons mark marks =>
      cases before with
      | nil =>
        rw [exists_split_nil]
        simp [Marked, afterRun]
      | cons d before =>
        rw [List.cons_append, List.cons.injEq] at htext
        obtain ⟨rfl, htext⟩ := htext
        have hrest : IsRow text marks := by
          unfold IsRow at *
          simpa using h
        show Marked (afterRun ((mark || reached) && c != '\n') text marks) before.length ↔ _
        rw [ih _ htext hrest]
        constructor
        · rintro (⟨start, span, rfl, hmark, hspan⟩ | ⟨hreached, hbefore⟩)
          · exact .inl ⟨c :: start, span, rfl, hmark, hspan⟩
          · simp only [Bool.and_eq_true, Bool.or_eq_true, bne_iff_ne] at hreached
            obtain ⟨hreached, hc⟩ := hreached
            have hline : '\n' ∉ c :: before := by
              simp [hbefore, Ne.symm hc]
            rcases hreached with rfl | hreached
            · exact .inl ⟨[], c :: before, rfl, rfl, hline⟩
            · exact .inr ⟨hreached, hline⟩
        · rintro (⟨start, span, hbefore, hmark, hspan⟩ | ⟨hreached, hline⟩)
          · cases start with
            | nil =>
              cases hbefore
              have hmark' : mark = true := by simpa [Marked] using hmark
              rw [List.mem_cons, not_or] at hspan
              refine .inr ⟨?_, hspan.2⟩
              simp [hmark', Ne.symm hspan.1]
            | cons d start =>
              cases hbefore
              exact .inl ⟨start, span, rfl, hmark, hspan⟩
          · rw [List.mem_cons, not_or] at hline
            refine .inr ⟨?_, hline.2⟩
            simp [hreached, Ne.symm hline.1]

/-! ## Marks and meaning -/

/-- One character that passes the test is what the part stands for. -/
theorem marked_afterChar_iff_matches {part : Part} {test : Char → Bool}
    (hpart : ∀ span, part.Matches span ↔ ∃ c, span = [c] ∧ test c = true)
    {text before after : List Char} {marks : Marks} (htext : text = before ++ after)
    (h : IsRow text marks) :
    Marked (afterChar test text marks) before.length ↔
      ∃ start span, before = start ++ span ∧ Marked marks start.length ∧ part.Matches span := by
  rw [marked_afterChar_iff htext h]
  constructor
  · rintro ⟨start, c, hbefore, hmark, hc⟩
    exact ⟨start, [c], hbefore, hmark, (hpart [c]).mpr ⟨c, rfl, hc⟩⟩
  · rintro ⟨start, span, hbefore, hmark, hspan⟩
    obtain ⟨c, rfl, hc⟩ := (hpart span).mp hspan
    exact ⟨start, c, hbefore, hmark, hc⟩

theorem matches_literal_iff (c : Char) (span : List Char) :
    (Part.literal c).Matches span ↔ ∃ d, span = [d] ∧ Text.sameFolded c d = true := by
  constructor
  · intro h
    cases h with
    | literal h => exact ⟨_, rfl, h⟩
  · rintro ⟨d, rfl, h⟩
    exact .literal h

theorem matches_anyOne_iff (span : List Char) :
    Part.anyOne.Matches span ↔ ∃ d, span = [d] ∧ (d != '\n') = true := by
  constructor
  · intro h
    cases h with
    | anyOne h => exact ⟨_, rfl, bne_iff_ne.mpr h⟩
  · rintro ⟨d, rfl, h⟩
    exact .anyOne (bne_iff_ne.mp h)

theorem matches_anyRun_iff (span : List Char) : Part.anyRun.Matches span ↔ '\n' ∉ span := by
  constructor
  · intro h
    cases h with
    | anyRun h => exact h
  · exact .anyRun

theorem matches_oneOf_iff (k : CharClass) (span : List Char) :
    (Part.oneOf k).Matches span ↔ ∃ d, span = [d] ∧ k.has d = true := by
  constructor
  · intro h
    cases h with
    | oneOf h => exact ⟨_, rfl, (k.has_iff _).mpr h⟩
  · rintro ⟨d, rfl, h⟩
    exact .oneOf ((k.has_iff d).mp h)

theorem matches_alternation_iff (branches : List (List Part)) (span : List Char) :
    (Part.alternation branches).Matches span ↔ ∃ branch ∈ branches, Matches branch span := by
  constructor
  · intro h
    cases h with
    | alternation hbranch h => exact ⟨_, hbranch, h⟩
  · rintro ⟨branch, hbranch, h⟩
    exact .alternation hbranch h

mutual

theorem Part.advance_iff {text : List Char} : ∀ (part : Part) {before after : List Char}
    {marks : Marks}, text = before ++ after → IsRow text marks →
    (Marked (part.advance text marks) before.length ↔
      ∃ start span, before = start ++ span ∧ Marked marks start.length ∧ part.Matches span)
  | .literal c, _, _, _, htext, h => marked_afterChar_iff_matches (matches_literal_iff c) htext h
  | .anyOne, _, _, _, htext, h => marked_afterChar_iff_matches matches_anyOne_iff htext h
  | .anyRun, _, _, _, htext, h => by
    simp only [matches_anyRun_iff]
    exact (marked_afterRun_iff false htext h).trans (by simp)
  | .oneOf k, _, _, _, htext, h => marked_afterChar_iff_matches (matches_oneOf_iff k) htext h
  | .alternation branches, _, _, _, htext, h => by
    simp only [matches_alternation_iff]
    exact advanceAny_iff branches htext h

theorem advanceAny_iff {text : List Char} : ∀ (branches : List (List Part))
    {before after : List Char} {marks : Marks}, text = before ++ after → IsRow text marks →
    (Marked (advanceAny text branches marks) before.length ↔
      ∃ start span, before = start ++ span ∧ Marked marks start.length ∧
        ∃ branch ∈ branches, Matches branch span)
  | [], before, _, _, _, _ => by
    simp [advanceAny, not_marked_nowhere text before.length]
  | branch :: branches, before, _, marks, htext, h => by
    rw [advanceAny, marked_or_iff htext (isRow_advanceAll branch h) (isRow_advanceAny branches h),
      advanceAll_iff branch htext h, advanceAny_iff branches htext h]
    constructor
    · rintro (⟨start, span, hbefore, hmark, hspan⟩ |
        ⟨start, span, hbefore, hmark, other, hother, hspan⟩)
      · exact ⟨start, span, hbefore, hmark, branch, List.mem_cons_self .., hspan⟩
      · exact ⟨start, span, hbefore, hmark, other, List.mem_cons_of_mem _ hother, hspan⟩
    · rintro ⟨start, span, hbefore, hmark, other, hother, hspan⟩
      rcases List.mem_cons.mp hother with rfl | hother
      · exact .inl ⟨start, span, hbefore, hmark, hspan⟩
      · exact .inr ⟨start, span, hbefore, hmark, other, hother, hspan⟩

theorem advanceAll_iff {text : List Char} : ∀ (parts : List Part) {before after : List Char}
    {marks : Marks}, text = before ++ after → IsRow text marks →
    (Marked (advanceAll text parts marks) before.length ↔
      ∃ start span, before = start ++ span ∧ Marked marks start.length ∧ Matches parts span)
  | [], before, _, _, _, _ => by
    simp [advanceAll, matches_nil_iff]
  | part :: parts, before, after, marks, htext, h => by
    rw [advanceAll, advanceAll_iff parts htext (part.isRow_advance h)]
    constructor
    · rintro ⟨middle, rest, rfl, hmiddle, hrest⟩
      rw [List.append_assoc] at htext
      obtain ⟨start, span, rfl, hmark, hspan⟩ := (part.advance_iff htext h).mp hmiddle
      exact ⟨start, span ++ rest, List.append_assoc .., hmark, .cons hspan hrest⟩
    · rintro ⟨start, span, rfl, hmark, hspan⟩
      obtain ⟨first, rest, rfl, hfirst, hrest⟩ := (matches_cons_iff part parts span).mp hspan
      have htext' : text = (start ++ first) ++ (rest ++ after) := by
        rw [htext]
        simp only [List.append_assoc]
      exact ⟨start ++ first, rest, (List.append_assoc ..).symm,
        (part.advance_iff htext' h).mpr ⟨start, first, rfl, hmark, hfirst⟩, hrest⟩

end

/-- **Matching decides the meaning of a pattern.** -/
theorem matchesAll_iff (parts : List Part) (text : List Char) :
    matchesAll parts text = true ↔ Matches parts text := by
  have hrow : IsRow text (atStart text) := by
    simp [IsRow, atStart]
  have hstart : ∀ count, Marked (atStart text) count ↔ count = 0 := by
    intro count
    cases count with
    | zero => exact ⟨fun _ => rfl, fun _ => rfl⟩
    | succ count =>
      exact ⟨fun h => absurd h (not_marked_map text count),
        fun h => absurd h (Nat.succ_ne_zero count)⟩
  have hlast : matchesAll parts text = true ↔
      Marked (advanceAll text parts (atStart text)) text.length := by
    have hlength : (advanceAll text parts (atStart text)).length = text.length + 1 :=
      isRow_advanceAll parts hrow
    rw [matchesAll, beq_iff_eq, List.getLast?_eq_getElem?, hlength, Nat.add_sub_cancel, Marked]
  rw [hlast, advanceAll_iff parts (List.append_nil text).symm hrow]
  constructor
  · rintro ⟨start, span, rfl, hmark, hspan⟩
    rw [hstart, List.length_eq_zero_iff] at hmark
    rw [hmark]
    exact hspan
  · intro h
    exact ⟨[], text, rfl, (hstart 0).mpr rfl, h⟩

end LinkedDocs.Glob
