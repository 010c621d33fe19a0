import LinkedDocs.Proofs.Glob.Reading

/-!
# Which patterns cannot be read

A pattern fails to be read for what is left over at its end, for a level that is still open there,
or for a class with a reversed range. The first is a matter of its last piece. The second needs
counting: a level that is open at the end was opened by some brace, and no closing brace after that
one belongs to it, because up to any point behind it at least as many levels have been opened as
closed (`outer_ne_nil_iff`).

> `partsOf_eq_error_iff`: the patterns that cannot be read are the malformed ones.
-/

namespace LinkedDocs.Glob

/-! ## Levels -/

namespace Reading

/-- An opening brace opens a level and a closing one closes one, if there is any. -/
theorem length_outer_take (r : Reading) (piece : Piece) :
    (r.take piece).outer.length
      = r.outer.length + [piece].countP (Piece.isChar '\x7b')
        - [piece].countP (Piece.isChar '\x7d') := by
  cases piece with
  | escaped c => rfl
  | charClass text nonempty =>
    cases hclass : CharClass.ofBody? text.mark.negates text.body with
    | none => simp [take, hclass, Piece.isChar]
    | some k => simp [take, hclass, Piece.isChar, add]
  | char c plain =>
    by_cases hopening : c = '\x7b'
    · subst hopening
      rfl
    by_cases hclosing : c = '\x7d'
    · subst hclosing
      cases houter : r.outer with
      | nil => simp [take, stepOutside, houter, add, Piece.isChar]
      | cons around outer => simp [take, stepOutside, houter, Piece.isChar]
    · have hkept : (r.stepOutside c).outer = r.outer := by
        unfold stepOutside
        split
        all_goals first | rfl | contradiction
      simp [take, hkept, Piece.isChar, hopening, hclosing]

end Reading

theorem NeverClose.of_prefix {pieces more : List Piece} (h : NeverClose (pieces ++ more)) :
    NeverClose pieces :=
  fun first hfirst => h first (hfirst.trans (List.prefix_append pieces more))

theorem NeverClose.concat {pieces : List Piece} {piece : Piece} (h : NeverClose pieces)
    (hall : (pieces ++ [piece]).countP (Piece.isChar '\x7d')
      ≤ (pieces ++ [piece]).countP (Piece.isChar '\x7b')) : NeverClose (pieces ++ [piece]) := by
  intro first hfirst
  rcases List.prefix_concat_iff.mp hfirst with rfl | hfirst
  · exact hall
  · exact h first hfirst

namespace Reading

/-- If no level is closed that was open before, the levels are those before and the ones opened. -/
theorem length_outer_of_neverClose {pieces : List Piece} (h : NeverClose pieces) (r : Reading) :
    (pieces.foldl take r).outer.length + pieces.countP (Piece.isChar '\x7d')
      = r.outer.length + pieces.countP (Piece.isChar '\x7b') := by
  induction pieces using List.reverseRecOn with
  | nil => rfl
  | append_singleton pieces piece ih =>
    have hbefore := ih h.of_prefix
    have hstep := length_outer_take (pieces.foldl take r) piece
    have hall := h (pieces ++ [piece]) (List.prefix_refl _)
    rw [List.countP_append, List.countP_append] at hall
    rw [List.foldl_append, List.foldl_cons, List.foldl_nil, List.countP_append, List.countP_append]
    omega

/-- A level that is open at the end has been opened by a brace and never closed. -/
theorem exists_unclosed {pieces : List Piece} : ∀ {n : Nat},
    (pieces.foldl take start).outer.length = n + 1 →
      ∃ before after, pieces = before ++ .opening :: after ∧ NeverClose after ∧
        after.countP (Piece.isChar '\x7b') = after.countP (Piece.isChar '\x7d') + n := by
  induction pieces using List.reverseRecOn with
  | nil =>
    intro n h
    cases h
  | append_singleton pieces piece ih =>
    intro n h
    have hstep := length_outer_take (pieces.foldl take start) piece
    rw [List.foldl_append, List.foldl_cons, List.foldl_nil] at h
    cases hlevels : (pieces.foldl take start).outer.length with
    | zero =>
      -- the piece is the brace
      have hone : [piece].countP (Piece.isChar '\x7b') ≤ 1 := List.countP_le_length
      have hopens : 0 < [piece].countP (Piece.isChar '\x7b') := by omega
      obtain ⟨other, hother, hbrace⟩ := List.countP_pos_iff.mp hopens
      rw [List.mem_singleton] at hother
      subst hother
      have hpiece : other = .opening := by
        cases other with
        | char c plain =>
          obtain rfl : c = '\x7b' := beq_iff_eq.mp hbrace
          rfl
        | escaped c => cases hbrace
        | charClass text nonempty => cases hbrace
      refine ⟨pieces, [], by rw [hpiece], ?_, ?_⟩
      · intro first hfirst
        rw [List.prefix_nil.mp hfirst]
        exact Nat.le_refl _
      · show 0 = 0 + n
        omega
    | succ levels =>
      obtain ⟨before, after, rfl, hafter, hcount⟩ := ih hlevels
      refine ⟨before, after ++ [piece], by simp, hafter.concat ?_, ?_⟩
      · rw [List.countP_append, List.countP_append]
        omega
      · rw [List.countP_append, List.countP_append]
        omega

end Reading

/-! ## Malformed patterns -/

open Reading

/-- A level left open, or a class that cannot be read: there is nothing else at the end of the
pieces of a pattern. -/
theorem partsOf_textOf_error_iff {source : String} {pieces : List Piece}
    (h : source.toList = textOf pieces) :
    (∃ fault, partsOf source = .error fault) ↔
      (pieces.foldl take start).outer ≠ [] ∨ ∃ piece ∈ pieces, piece.Unreadable := by
  have hreversed := reversedRange_foldl_take_iff start pieces
  rw [or_iff_right (fun hstart => Bool.noConfusion hstart)] at hreversed
  rw [partsOf_textOf h, ← hreversed, Reading.finish, mode_foldl_take rfl pieces]
  by_cases houter : (pieces.foldl take start).outer = []
  · cases hflag : (pieces.foldl take start).reversedRange with
    | true => simp [houter]
    | false => simp [houter]
  · simp [houter]

/-- A level is open at the end if and only if a brace is never closed. -/
theorem outer_ne_nil_iff (pieces : List Piece) :
    (pieces.foldl take start).outer ≠ [] ↔
      ∃ before after, pieces = before ++ .opening :: after ∧ NeverClose after := by
  constructor
  · intro houter
    obtain ⟨n, hn⟩ := Nat.exists_eq_succ_of_ne_zero fun hlength =>
      houter (List.eq_nil_of_length_eq_zero hlength)
    obtain ⟨before, after, hpieces, hafter, -⟩ := exists_unclosed hn
    exact ⟨before, after, hpieces, hafter⟩
  · rintro ⟨before, after, rfl, hafter⟩ hnil
    have hlength := length_outer_of_neverClose hafter ((before.foldl take start).take .opening)
    have hcount := hafter after (List.prefix_refl _)
    rw [List.foldl_append, List.foldl_cons] at hnil
    rw [hnil, take_opening, List.length_cons, List.length_nil] at hlength
    omega

/-- With its hyphens apart, a class that cannot be read has a reversed range. -/
theorem unreadable_iff {k : ClassText} (nonempty : k.body ≠ []) (h : HyphensApart k.body) :
    (Piece.charClass k nonempty).Unreadable ↔ HasReversedRange k.body := by
  constructor
  · intro hunreadable
    by_contra hordered
    obtain ⟨k', hk'⟩ := exists_written k.mark.negates hordered
    rw [Piece.Unreadable, ofBody?_of_written hk' h] at hunreadable
    cases hunreadable
  · intro hreversed
    exact ofBody?_of_hasReversedRange hreversed h k.mark.negates

/-- Without a fault in its parts a pattern is refused for its size only. -/
theorem ofSource_fails_iff {source : String} :
    (∃ fault, Pattern.ofSource source = .error fault) ↔
      (∃ fault, partsOf source = .error fault) ∨
        ∃ parts, partsOf source = .ok parts ∧
          (maxDepth < depth parts ∨ maxWeight < weight parts) := by
  simp only [Pattern.ofSource_eq_error_iff, read]
  cases partsOf source with
  | error fault => simp [Except.bind]
  | ok parts =>
    simp only [Except.bind, withinLimits]
    by_cases hdepth : maxDepth < depth parts
    · simp [hdepth]
    · by_cases hweight : maxWeight < weight parts
      · simp [hdepth, hweight]
      · simp [hdepth, hweight]

/-- **Reading fails on malformed patterns and on no others.** -/
theorem partsOf_eq_error_iff {source : String} (hapart : ClassHyphensApart source.toList) :
    (∃ fault, partsOf source = .error fault) ↔ Malformed source.toList := by
  constructor
  · intro h
    obtain ⟨pieces, ending, htext, hending⟩ := exists_pieces source.toList
    cases hending with
    | escape =>
      rw [htext]
      exact .loneEscape pieces
    | openClass k =>
      rw [htext]
      exact .unclosedClass pieces k
    | none =>
      rw [List.append_nil] at htext
      rcases (partsOf_textOf_error_iff htext).mp h with houter | ⟨piece, hpiece, hunreadable⟩
      · obtain ⟨before, after, rfl, hafter⟩ := (outer_ne_nil_iff pieces).mp houter
        rw [htext]
        exact .unclosedAlternation hafter
      · cases piece with
        | char c plain => exact hunreadable.elim
        | escaped c => exact hunreadable.elim
        | charClass k nonempty =>
          have hhyphens := hapart pieces htext k nonempty hpiece
          rw [htext]
          exact .reversedRange hpiece ((unreadable_iff nonempty hhyphens).mp hunreadable)
  · intro h
    generalize htext : source.toList = text at h
    cases h with
    | loneEscape pieces => exact ⟨_, partsOf_loneEscape htext⟩
    | unclosedClass pieces k => exact ⟨_, partsOf_openClass htext⟩
    | @unclosedAlternation before after hafter =>
      have houter := (outer_ne_nil_iff _).mpr ⟨before, after, rfl, hafter⟩
      exact (partsOf_textOf_error_iff htext).mpr (.inl houter)
    | @reversedRange pieces k nonempty hpiece hreversed =>
      have hhyphens := hapart pieces htext k nonempty hpiece
      have hunreadable := (unreadable_iff nonempty hhyphens).mpr hreversed
      exact (partsOf_textOf_error_iff htext).mpr (.inr ⟨_, hpiece, hunreadable⟩)

end LinkedDocs.Glob
