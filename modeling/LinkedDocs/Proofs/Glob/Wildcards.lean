import LinkedDocs.Glob.Limits
import LinkedDocs.Proofs.Glob.Translation

/-!
# A pattern between two stars

With a star on either side a pattern is looked for inside a text. Whatever the pattern holds at its
edges, the stars stay pieces of their own (`partsOf_betweenStars`), so the longer pattern has the
same parts with a run before and after; it is hardly deeper (`depth_betweenRuns_le`) and heavier by
the two runs.

A run stops at a line feed, though. That is why the text around a match may be anything without line
feeds (`Pattern.isMatch_between_stars`) but not anything at all (`star_stops_at_line_feed`).
-/

namespace LinkedDocs.Glob

/-- Parts with a run before and after. -/
def betweenRuns (parts : List Part) : List Part := .anyRun :: (parts ++ [.anyRun])

/-- The parts stand for what they stood for, with other text on both sides. -/
theorem Matches.betweenRuns {parts : List Part} {text before after : List Char}
    (h : Matches parts text) (hbefore : '\n' ∉ before) (hafter : '\n' ∉ after) :
    Matches (betweenRuns parts) (before ++ (text ++ after)) := by
  have hlast : Matches [.anyRun] after := by
    have := Matches.cons (.anyRun hafter) .nil
    rwa [List.append_nil] at this
  exact .cons (.anyRun hbefore) (h.append hlast)

/-- The stars are parts of their own. -/
theorem partsOf_betweenStars {source : String} {parts : List Part}
    (h : partsOf source = .ok parts) :
    partsOf ("*" ++ source ++ "*") = .ok (betweenRuns parts) := by
  obtain ⟨pieces, htext, hwritten⟩ := partsOf_eq_ok_iff.mp h
  have hstar : WrittenPart ReadAs false [.star] .anyRun := .anyRun
  refine partsOf_eq_ok_iff.mpr ⟨.star :: (pieces ++ [.star]), ?_, ?_⟩
  · rw [String.toList_append, String.toList_append, htext, textOf_cons, textOf_append,
      List.append_assoc]
    rfl
  · exact Written.cons hstar (hwritten.append hstar.single)

/-- One level more than the parts have, or two if they have none. -/
theorem depth_betweenRuns_le (parts : List Part) :
    depth (betweenRuns parts) ≤ max 1 (depth parts) + 1 := by
  have hdeepest : deepestPart (betweenRuns parts) = max 1 (deepestPart parts) := by
    simp only [betweenRuns, deepestPart, deepestPart_append, Part.depth]
    omega
  have hparts : deepestPart parts ≤ depth parts := le_sideBySide _ _
  have hstep := sideBySide_le (betweenRuns parts).length (deepestPart (betweenRuns parts))
  rw [hdeepest] at hstep
  unfold depth at hparts ⊢
  rw [hdeepest]
  omega

theorem weight_betweenRuns (parts : List Part) :
    weight (betweenRuns parts) = weight parts + 2 * Part.anyRun.weight := by
  simp only [betweenRuns, weight, weight_append]
  omega

/-- **Between two stars a pattern is found inside a text.** Whatever a pattern matches, the pattern
between stars matches with any text around it that has no line feed. It is always well formed, and
can be read unless the pattern itself is as deep as a pattern may be or too heavy for two runs more.
-/
theorem Pattern.isMatch_between_stars (p : Pattern) {before text after : String}
    (h : p.isMatch text = true) (hbefore : '\n' ∉ before.toList) (hafter : '\n' ∉ after.toList) :
    (∃ parts, partsOf ("*" ++ p.source ++ "*") = .ok parts ∧
        matchesAll parts (before ++ text ++ after).toList = true) ∧
      (∃ expression, compile ("*" ++ p.source ++ "*") = .ok expression ∧
        Finds expression (before ++ text ++ after).toList) ∧
      (depth p.parts < maxDepth → weight p.parts + 2 * Part.anyRun.weight ≤ maxWeight →
        ∃ q, Pattern.ofSource ("*" ++ p.source ++ "*") = .ok q ∧
          q.isMatch (before ++ text ++ after) = true) := by
  have hparts := partsOf_betweenStars (read_eq_ok_iff.mp p.read_eq).1
  have hmatches : Matches (betweenRuns p.parts) (before ++ text ++ after).toList := by
    rw [String.toList_append, String.toList_append, List.append_assoc]
    exact ((matchesAll_iff p.parts text.toList).mp h).betweenRuns hbefore hafter
  have hmatchesAll := (matchesAll_iff _ _).mpr hmatches
  refine ⟨⟨_, hparts, hmatchesAll⟩, ⟨wholeText (betweenRuns p.parts), ?_, ?_⟩, ?_⟩
  · rw [compile_eq, hparts]
    rfl
  · exact (finds_wholeText_iff _ _).mpr hmatches
  · intro hdepth hweight
    have hdepths := depth_betweenRuns_le p.parts
    have hread : read ("*" ++ p.source ++ "*") = .ok (betweenRuns p.parts) := by
      refine read_eq_ok_iff.mpr ⟨hparts, ?_, ?_⟩
      · unfold maxDepth at hdepth ⊢
        omega
      · rw [weight_betweenRuns]
        exact hweight
    exact ⟨⟨_, _, hread⟩, Pattern.ofSource_eq_ok_iff.mpr rfl, hmatchesAll⟩

/-- A pattern with an alternation at one edge and an escaped star at the other. -/
def Pattern.starred : Pattern where
  source := "\x7ba,[!b]?\x7d\\*"
  parts := [.alternation [[.literal 'a'], [.oneOf ⟨true, [.char 'b'], []⟩, .anyOne]], .literal '*']
  read_eq := read_eq_ok_iff.mpr ⟨by rfl, by decide +kernel, by decide +kernel⟩

theorem Pattern.isMatch_between_stars_starred :
    Pattern.starred.isMatch "xy*" = true ∧
      ∃ q, Pattern.ofSource ("*" ++ Pattern.starred.source ++ "*") = .ok q ∧
        q.isMatch ("a " ++ "xy*" ++ ", b") = true := by
  have hmatch : Pattern.starred.isMatch "xy*" = true := by decide +kernel
  have hbefore : '\n' ∉ "a ".toList := by decide
  have hafter : '\n' ∉ ", b".toList := by decide
  have hfound := (Pattern.isMatch_between_stars Pattern.starred hmatch hbefore hafter).2.2
  exact ⟨hmatch, hfound (by decide +kernel) (by decide +kernel)⟩

/-- A star does not take a line feed. -/
theorem star_stops_at_line_feed :
    ∃ p q, Pattern.ofSource "a" = .ok p ∧ p.isMatch "a" = true ∧
      Pattern.ofSource ("*" ++ "a" ++ "*") = .ok q ∧ q.isMatch ("\n" ++ "a" ++ "") = false := by
  have hp : read "a" = .ok [.literal 'a'] := by rfl
  have hq : read ("*" ++ "a" ++ "*") = .ok [.anyRun, .literal 'a', .anyRun] := by rfl
  have hmatch : matchesAll [.literal 'a'] "a".toList = true := by decide +kernel
  have hnone : matchesAll [.anyRun, .literal 'a', .anyRun] ("\n" ++ "a" ++ "").toList = false := by
    decide +kernel
  exact ⟨⟨_, _, hp⟩, ⟨_, _, hq⟩, Pattern.ofSource_eq_ok_iff.mpr rfl, hmatch,
    Pattern.ofSource_eq_ok_iff.mpr rfl, hnone⟩

end LinkedDocs.Glob
