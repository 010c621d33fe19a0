import LinkedDocs.Glob.Limits
import LinkedDocs.Proofs.Glob.Translation

/-!
# Patterns of one class

A pattern that is a single class is a set of characters: those that its members list, up to case, or
all others (`Pattern.isMatch_oneClass`). Any character can be a member, and what is special in a
class of a regular expression is written there with a backslash.

Hyphens are not, and two of them in a row are an operator there. Where a class has adjacent hyphens,
except at the start, what follows them is taken away instead of added
(`adjacent_hyphens_take_away`).
-/

namespace LinkedDocs.Glob

/-- The pattern that is this class. -/
def ClassText.source (k : ClassText) : String := String.ofList ('[' :: k.text ++ [']'])

/-- The class of its members is the only part of a pattern that is a class. -/
theorem partsOf_source {k : ClassText} (nonempty : k.body ≠ []) {chars : CharClass}
    (h : CharClass.ofBody? k.mark.negates k.body = some chars) :
    partsOf k.source = .ok [.oneOf chars] := by
  have hpart : WrittenPart ReadAs false [.charClass k nonempty] (.oneOf chars) := .oneOf h
  refine partsOf_eq_ok_iff.mpr ⟨[.charClass k nonempty], ?_, hpart.single⟩
  rw [ClassText.source, String.toList_ofList]
  simp [textOf, Piece.text]

/-- A class alone stands for the characters that it admits. -/
theorem matches_class_iff (chars : CharClass) (c : Char) :
    Matches [.oneOf chars] [c] ↔ chars.Admits c := by
  rw [← CharClass.has_iff, matches_cons_iff]
  constructor
  · intro h
    obtain ⟨first, rest, htext, hfirst, hrest⟩ := h
    obtain ⟨d, rfl, hd⟩ := (matches_oneOf_iff chars first).mp hfirst
    cases htext
    exact hd
  · intro hc
    exact ⟨[c], [], rfl, (matches_oneOf_iff chars [c]).mpr ⟨c, rfl, hc⟩, .nil⟩

/-- **A class is the set of its members.** If all its ranges go up and no hyphens are adjacent, but
for those at the start, a pattern that is a class can be read. It matches a character if one of the
members lists it, up to case, or in a negated class if none does; and so does its expression. -/
theorem Pattern.isMatch_oneClass (k : ClassText) (nonempty : k.body ≠ [])
    {members : List ClassMember} (written : Members k.body members)
    (in_order : ∀ m ∈ members, m.inOrder = true)
    (apart : HyphensApart (k.body.dropWhile (· == '-'))) :
    (∃ p, Pattern.ofSource k.source = .ok p ∧
        ∀ c, p.isMatch (String.singleton c) = true ↔
          (Listed members c ↔ k.mark.negates = false)) ∧
      ∃ expression, compile k.source = .ok expression ∧
        ∀ c, Finds expression [c] ↔ (Listed members c ↔ k.mark.negates = false) := by
  have hbody : CharClass.ofBody? k.mark.negates k.body = some ⟨k.mark.negates, members, []⟩ := by
    rw [ofBody?_eq_of_dropWhile written apart, if_pos (List.all_eq_true.mpr in_order)]
  have hparts := partsOf_source nonempty hbody
  have hadmits : ∀ c, CharClass.Admits ⟨k.mark.negates, members, []⟩ c ↔
      (Listed members c ↔ k.mark.negates = false) := by
    intro c
    simp [CharClass.Admits]
  have hread : read k.source = .ok [.oneOf ⟨k.mark.negates, members, []⟩] := by
    refine read_eq_ok_iff.mpr ⟨hparts, ?_, ?_⟩
    · have hdepth : CharClass.depth ⟨k.mark.negates, members, []⟩ ≤ 2 :=
        CharClass.depth_le_of_without_eq_nil rfl
      have hpart : depth [.oneOf ⟨k.mark.negates, members, []⟩]
          = CharClass.depth ⟨k.mark.negates, members, []⟩ := by
        simp [depth, sideBySide, deepestPart, Part.depth]
      unfold maxDepth
      omega
    · simp [weight, Part.weight, charWeight, maxWeight]
  refine ⟨⟨⟨_, _, hread⟩, Pattern.ofSource_eq_ok_iff.mpr rfl, ?_⟩,
    ⟨wholeText [.oneOf ⟨k.mark.negates, members, []⟩], ?_, ?_⟩⟩
  · intro c
    rw [Pattern.isMatch, matchesAll_iff, String.toList_singleton, matches_class_iff, hadmits]
  · rw [compile_eq, hparts]
    rfl
  · intro c
    rw [finds_wholeText_iff, matches_class_iff, hadmits]

/-- All characters but brackets that close, digits and hyphens. -/
def noBracketsOrDigits : ClassText where
  mark := .exclamation
  body := [']', '0', '-', '9', '-']
  unmarked := by decide
  unclosed := by decide

theorem Pattern.isMatch_oneClass_bracket_first :
    noBracketsOrDigits.source = "[!]0-9-]" ∧
      Members noBracketsOrDigits.body [.char ']', .range '0' '9', .char '-'] ∧
      ∃ p, Pattern.ofSource "[!]0-9-]" = .ok p ∧ p.isMatch (String.singleton '-') = false ∧
        p.isMatch (String.singleton 'x') = true := by
  have hsource : noBracketsOrDigits.source = "[!]0-9-]" := by rfl
  have hmembers : Members noBracketsOrDigits.body [.char ']', .range '0' '9', .char '-'] := by
    have hlast : Members ['-'] [.char '-'] := .char (.inl rfl) .nil
    have hdigits : Members ['0', '-', '9', '-'] [.range '0' '9', .char '-'] :=
      .range (by decide) hlast
    exact .char (.inr (by simp)) hdigits
  have hapart : HyphensApart (noBracketsOrDigits.body.dropWhile (· == '-')) := by
    unfold HyphensApart
    decide
  obtain ⟨⟨p, hp, hmatch⟩, -⟩ := Pattern.isMatch_oneClass noBracketsOrDigits (by decide) hmembers
    (by decide) hapart
  rw [hsource] at hp
  refine ⟨hsource, hmembers, p, hp, ?_, ?_⟩
  · have hlisted : Listed [.char ']', .range '0' '9', .char '-'] '-' :=
      (oneOf_iff _ _).mp (by decide +kernel)
    rw [← Bool.not_eq_true, hmatch]
    intro h
    cases h.mp hlisted
  · have hunlisted : ¬ Listed [.char ']', .range '0' '9', .char '-'] 'x' := by
      rw [← oneOf_iff]
      decide +kernel
    rw [hmatch]
    exact ⟨fun h => absurd h hunlisted, fun h => absurd h (by decide)⟩

/-- Digits and two hyphens, one right after the range and one at the end. -/
def digitsAndHyphens : ClassText where
  mark := .none
  body := ['0', '-', '9', '-', '-']
  unmarked := by decide
  unclosed := by decide

/-- The hyphens are listed, but the class does not match a hyphen. -/
theorem adjacent_hyphens_take_away :
    digitsAndHyphens.source = "[0-9--]" ∧
      Members digitsAndHyphens.body [.range '0' '9', .char '-', .char '-'] ∧
      Listed [.range '0' '9', .char '-', .char '-'] '-' ∧
      ∃ p, Pattern.ofSource "[0-9--]" = .ok p ∧ p.isMatch (String.singleton '-') = false := by
  have hmembers : Members digitsAndHyphens.body [.range '0' '9', .char '-', .char '-'] := by
    have hlast : Members ['-', '-'] [.char '-', .char '-'] :=
      .char (.inl rfl) (.char (.inl rfl) .nil)
    exact .range (by decide) hlast
  have hread : read "[0-9--]" = .ok [.oneOf ⟨false, [.range '0' '9'], [[]]⟩] := by rfl
  have hmatch : matchesAll [.oneOf ⟨false, [.range '0' '9'], [[]]⟩] (String.singleton '-').toList
      = false := by decide +kernel
  exact ⟨by rfl, hmembers, (oneOf_iff _ _).mp (by decide +kernel), ⟨_, _, hread⟩,
    Pattern.ofSource_eq_ok_iff.mpr rfl, hmatch⟩

end LinkedDocs.Glob
