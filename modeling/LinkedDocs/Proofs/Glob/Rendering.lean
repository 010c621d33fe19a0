import LinkedDocs.Glob.Rendering
import LinkedDocs.Proofs.Glob.Reading

/-!
# The expression of a pattern mirrors its parts

A pattern is followed in two ways: its parts are read directly, and an expression is written that is
read afterwards. The two stay in step (`Mirrors`): whenever a character of the pattern is taken,
what has been written so far would lead a reader of expressions to the same levels, part for part.
An escape or a bracket missing in what is written would show here, because the reader of expressions
gives every character its own meaning again.

Each step keeps the two in step, hence so does a run, and at the end the expression is nothing but
the parts in another spelling, between anchors:

> `compile_eq`: a pattern compiles to the expressions of its parts, and fails with the same fault if
> it has no parts.
-/

namespace LinkedDocs.Glob

/-! ## Parts as expressions -/

mutual

/-- The part as an expression. -/
def Part.expression : Part → Expression
  | .literal c => .char c
  | .anyOne => .anyChar
  | .anyRun => .repeated .anyChar
  | .oneOf k => .oneOf k
  | .alternation branches => .group (branchExpressions branches)

/-- The parts as a sequence of expressions. -/
def expressions : List Part → List Expression
  | [] => []
  | part :: parts => part.expression :: expressions parts

/-- The branches as alternatives. -/
def branchExpressions : List (List Part) → List (List Expression)
  | [] => []
  | branch :: branches => expressions branch :: branchExpressions branches

end

theorem expressions_eq_map (parts : List Part) : expressions parts = parts.map Part.expression := by
  induction parts with
  | nil => rfl
  | cons part parts ih => rw [expressions, ih, List.map_cons]

theorem branchExpressions_eq_map (branches : List (List Part)) :
    branchExpressions branches = branches.map expressions := by
  induction branches with
  | nil => rfl
  | cons branch branches ih => rw [branchExpressions, ih, List.map_cons]

/-- A pattern as alternatives of an expression: one, the parts between anchors. -/
def wholeText (parts : List Part) : List (List Expression) :=
  [[.startOfText, .group [expressions parts], .endOfText]]

namespace Branches

/-- The branches in hand as alternatives in hand. -/
def alternatives (b : Branches) : Expression.Alternatives :=
  ⟨b.finished.map expressions, b.current.map Part.expression⟩

theorem alternatives_split (b : Branches) : b.split.alternatives = b.alternatives.split := by
  unfold split alternatives Expression.Alternatives.split
  rw [List.map_cons, expressions_eq_map, List.map_reverse]
  rfl

theorem all_alternatives (b : Branches) : b.alternatives.all = branchExpressions b.all := by
  rw [Expression.Alternatives.all, ← alternatives_split, all, branchExpressions_eq_map,
    List.map_reverse]
  rfl

end Branches

/-! ## Reading what is written -/

namespace Expression.Reader

/-- After what every expression starts with: the anchor stands outside the group of the pattern. -/
def inGroup : Reader := ⟨.outside, .start, [⟨[], [.startOfText]⟩]⟩

theorem foldl_refused {r : Reader} (h : r.place = .refused) (text : List Char) :
    (text.foldl step r).place = .refused := by
  induction text generalizing r with
  | nil => exact h
  | cons c text ih =>
    refine ih ?_
    rw [step, h]
    exact h

/-- A character that is written as itself is read as itself. -/
theorem foldl_escape {r : Reader} (h : r.place = .outside) (c : Char) :
    (escape c).foldl step r = r.add (.char c) := by
  unfold escape
  by_cases hc : c ∈ reserved
  · rw [if_pos hc]
    have hescaped : step r '\\' = { r with place := .escaped } := by
      rw [step, h]
      rfl
    show step (step r '\\') c = _
    rw [hescaped]
    exact if_pos hc
  · rw [if_neg hc]
    show step r c = _
    rw [step, h]
    simp only [reserved, List.mem_cons, List.not_mem_nil, or_false, not_or] at hc
    simp [stepOutside, hc]

/-- A member of a class is read as one. -/
theorem foldl_classEscape (r : Reader) (negated : Bool) (body : List Char) (c : Char) :
    (classEscape c).foldl step { r with place := .inClass negated body }
      = { r with place := .inClass negated (c :: body) } := by
  unfold classEscape
  by_cases hc : c ∈ ['\\', '[', ']', '^', '&', '~']
  · rw [if_pos hc]
    have hreserved : c ∈ reserved ∧ c ≠ '-' := by
      simp only [List.mem_cons, List.not_mem_nil, or_false] at hc
      rcases hc with rfl | rfl | rfl | rfl | rfl | rfl
      all_goals decide
    exact if_pos hreserved
  · rw [if_neg hc]
    simp only [List.mem_cons, List.not_mem_nil, or_false, not_or] at hc
    show stepInClass _ negated body c = _
    simp [stepInClass, hc]

/-- The first member of a class without a mark is read as any other. -/
theorem foldl_classEscape_first (r : Reader) (c : Char) :
    (classEscape c).foldl step { r with place := .classStart }
      = { r with place := .inClass false [c] } := by
  rw [← foldl_classEscape r false [] c]
  -- the caret, which would negate the class, is written with a backslash
  have hfirst : ∀ d, d ≠ '^' → step { r with place := .classStart } d
      = step { r with place := .inClass false [] } d := fun d hd => if_neg hd
  unfold classEscape
  by_cases hc : c ∈ ['\\', '[', ']', '^', '&', '~']
  · rw [if_pos hc, List.foldl_cons, List.foldl_cons, hfirst '\\' (by decide)]
    rfl
  · rw [if_neg hc, List.foldl_cons, List.foldl_cons, hfirst c]
    rintro rfl
    exact hc (by decide)

end Expression.Reader

/-! ## The two in step -/

/-- Where the pass that writes is when the reader of parts is in this mode. -/
def Mode.rendering : Mode → RenderingPlace
  | .outside => .outside
  | .escaped => .escaped
  | .classStart => .classStart
  | .inClass _ body => .inClass body.isEmpty

/-- Where the reader of expressions is then. -/
def Mode.place : Mode → Expression.Place
  | .outside => .outside
  | .escaped => .outside
  | .classStart => .classStart
  | .inClass negated body => .inClass negated body

/-- The reader of expressions that has the same in hand. -/
def Reading.reader (r : Reading) : Expression.Reader :=
  ⟨r.mode.place, r.level.alternatives,
    r.outer.map Branches.alternatives ++ Expression.Reader.inGroup.outer⟩

/-- What reading the expression so far has led to. -/
def Rendering.read (w : Rendering) : Expression.Reader :=
  w.out.foldl Expression.Reader.step .inGroup

theorem Rendering.read_eq_of_out {w w' : Rendering} {text : List Char}
    (h : w'.out = w.out ++ text) : w'.read = text.foldl Expression.Reader.step w.read := by
  rw [read, h, List.foldl_append]
  rfl

/-- A character without another meaning is written as itself. -/
theorem Rendering.stepOutside_of_standsForItself {w : Rendering} {c : Char}
    (hplain : c ≠ '\\' ∧ c ≠ '[') (hc : StandsForItself (decide (0 < w.depth)) c) :
    w.stepOutside c = w.write (escape c) := by
  obtain ⟨hmeaning, hbranch⟩ := hc
  rw [decide_eq_true_eq] at hbranch
  simp only [List.mem_cons, List.not_mem_nil, or_false, not_or] at hmeaning hbranch
  have hcomma : ¬ (c = ',' ∧ 0 < w.depth) := fun h => (hbranch h.2).1 h.1
  have hclosing : ¬ (c = '\x7d' ∧ 0 < w.depth) := fun h => (hbranch h.2).2 h.1
  simp [stepOutside, hmeaning, hplain, hcomma, hclosing]

/-- The reader of parts, and the pass that writes: both are at the same place with as many
alternations open, and what is written reads as the parts, or not at all if a range was reversed. -/
structure Mirrors (r : Reading) (w : Rendering) : Prop where
  place_eq : w.place = r.mode.rendering
  depth_eq : w.depth = r.outer.length
  read_eq : r.reversedRange = false → w.read = r.reader
  refused : r.reversedRange = true → w.read.place = .refused

namespace Mirrors

variable {r r' : Reading} {w w' : Rendering}

/-- What is written for a step has to read as the step. -/
theorem extend (h : Mirrors r w) (text : List Char) (hout : w'.out = w.out ++ text)
    (hplace : w'.place = r'.mode.rendering) (hdepth : w'.depth = r'.outer.length)
    (hreversed : r'.reversedRange = r.reversedRange)
    (hread : text.foldl Expression.Reader.step r.reader = r'.reader) : Mirrors r' w' where
  place_eq := hplace
  depth_eq := hdepth
  read_eq := by
    intro hsound
    rw [Rendering.read_eq_of_out hout, h.read_eq (hreversed.symm.trans hsound), hread]
  refused := by
    intro hunsound
    rw [Rendering.read_eq_of_out hout]
    exact Expression.Reader.foldl_refused (h.refused (hreversed.symm.trans hunsound)) text

/-- A character that stands for itself is written with a backslash where it needs one. -/
theorem literal (h : Mirrors r w) (hmode : r.mode = .outside) (hplace : w.place = .outside)
    (c : Char) : Mirrors (r.add (.literal c)) (w.write (escape c)) := by
  have hreader : r.reader.place = .outside := by
    rw [Reading.reader, hmode]
    rfl
  refine h.extend (escape c) rfl hplace h.depth_eq rfl ?_
  rw [Expression.Reader.foldl_escape hreader]
  rfl

/-- A bar between alternatives is a comma between branches. -/
theorem comma (h : Mirrors r w) (hmode : r.mode = .outside) (hplace : w.place = .outside) :
    Mirrors { r with level := r.level.split } (w.write ['|']) := by
  obtain ⟨mode, level, outer, reversed⟩ := r
  subst hmode
  refine h.extend ['|'] rfl hplace h.depth_eq rfl ?_
  show Expression.Reader.mk _ level.alternatives.split _ = _
  rw [← Branches.alternatives_split]
  rfl

/-- A parenthesis ends a group as a brace ends an alternation. -/
theorem closing (h : Mirrors r w) (hmode : r.mode = .outside) (hplace : w.place = .outside)
    {around : Branches} {outer : List Branches} (houter : r.outer = around :: outer) :
    Mirrors { r with level := around.add (.alternation r.level.all), outer }
      { w.write [')'] with depth := w.depth - 1 } := by
  obtain ⟨mode, level, outer, reversed⟩ := r
  subst hmode houter
  refine h.extend [')'] rfl hplace ?_ rfl ?_
  · show w.depth - 1 = outer.length
    rw [h.depth_eq]
    rfl
  · show Expression.Reader.mk _ (around.alternatives.add (.group level.alternatives.all)) _ = _
    rw [Branches.all_alternatives]
    rfl

/-- Outside classes and escapes. -/
theorem stepOutside (h : Mirrors r w) (hmode : r.mode = .outside) (c : Char) :
    Mirrors (r.stepOutside c) (w.stepOutside c) := by
  have hplace : w.place = .outside := by
    rw [h.place_eq, hmode]
    rfl
  have hdepth := h.depth_eq
  obtain ⟨mode, level, outer, reversed⟩ := r
  subst hmode
  by_cases hescape : c = '\\'
  · subst hescape
    exact h.extend [] (List.append_nil _).symm rfl hdepth rfl rfl
  by_cases hclass : c = '['
  · subst hclass
    exact h.extend ['['] rfl rfl hdepth rfl rfl
  have hinside : (!outer.isEmpty) = decide (0 < w.depth) := by
    rw [hdepth]
    cases outer with
    | nil => rfl
    | cons around outer => simp
  rcases standsForItself_or (!outer.isEmpty) c with hc | rfl | rfl | rfl | ⟨hopen, hc⟩
  · rw [Reading.stepOutside_of_standsForItself (by simp) ⟨hescape, hclass⟩ hc,
      Rendering.stepOutside_of_standsForItself ⟨hescape, hclass⟩ (hinside ▸ hc)]
    exact h.literal rfl hplace c
  · exact h.extend ['.', '*'] rfl hplace hdepth rfl rfl
  · exact h.extend ['.'] rfl hplace hdepth rfl rfl
  · exact h.extend ['(', '?', ':'] rfl hplace (congrArg (· + 1) hdepth) rfl rfl
  · cases outer with
    | nil => cases hopen
    | cons around outer =>
      have hsome : 0 < w.depth := by
        rw [hdepth, List.length_cons]
        omega
      rcases hc with rfl | rfl
      · have hw : w.stepOutside ',' = w.write ['|'] := by simp [Rendering.stepOutside, hsome]
        rw [hw]
        exact h.comma rfl hplace
      · have hw : w.stepOutside '\x7d' = { w.write [')'] with depth := w.depth - 1 } := by
          simp [Rendering.stepOutside, hsome]
        rw [hw]
        exact h.closing rfl hplace rfl

/-- In a class, which may be closed. -/
theorem stepInClass (h : Mirrors r w) {negated : Bool} {body : List Char}
    (hmode : r.mode = .inClass negated body) (c : Char) :
    Mirrors (r.stepInClass negated body c) (w.stepInClass body.isEmpty c) := by
  have hdepth := h.depth_eq
  obtain ⟨mode, level, outer, reversed⟩ := r
  subst hmode
  by_cases hclose : c = ']' ∧ body ≠ []
  · obtain ⟨rfl, hbody⟩ := hclose
    have hw : w.stepInClass body.isEmpty ']' = { w.write [']'] with place := .outside } :=
      if_pos ⟨rfl, by simpa using hbody⟩
    rw [hw, Reading.stepInClass, if_pos ⟨rfl, hbody⟩]
    cases hclass : CharClass.ofBody? negated body.reverse with
    | some k =>
      refine h.extend [']'] rfl rfl hdepth rfl ?_
      show Expression.Reader.stepInClass _ negated body ']' = _
      rw [Expression.Reader.stepInClass, if_neg (by decide), if_pos ⟨rfl, hbody⟩, hclass]
      rfl
    | none =>
      refine ⟨rfl, hdepth, fun hsound => ?_, fun _ => ?_⟩
      · cases hsound
      · have hread : Rendering.read { w.write [']'] with place := .outside }
            = [']'].foldl Expression.Reader.step w.read := Rendering.read_eq_of_out rfl
        rw [hread]
        cases reversed with
        | true => exact Expression.Reader.foldl_refused (h.refused rfl) _
        | false =>
          rw [h.read_eq rfl]
          show (Expression.Reader.stepInClass _ negated body ']').place = _
          rw [Expression.Reader.stepInClass, if_neg (by decide), if_pos ⟨rfl, hbody⟩, hclass]
          rfl
  · have hw : w.stepInClass body.isEmpty c
        = { w.write (classEscape c) with place := .inClass false } := by
      refine if_neg fun h => hclose ⟨h.1, ?_⟩
      simpa using h.2
    rw [hw, Reading.stepInClass, if_neg hclose]
    exact h.extend (classEscape c) rfl rfl hdepth rfl
      (Expression.Reader.foldl_classEscape ⟨.outside, _, _⟩ negated body c)

/-- A step keeps the two in step. -/
theorem step (h : Mirrors r w) (c : Char) : Mirrors (r.step c) (w.step c) := by
  have hplace := h.place_eq
  unfold Reading.step Rendering.step
  cases hmode : r.mode with
  | outside =>
    rw [hplace, hmode]
    exact h.stepOutside hmode c
  | escaped =>
    rw [hplace, hmode]
    refine h.extend (escape c) rfl rfl h.depth_eq rfl ?_
    have hreader : r.reader.place = .outside := by
      rw [Reading.reader, hmode]
      rfl
    rw [Expression.Reader.foldl_escape hreader]
    rfl
  | classStart =>
    rw [hplace, hmode]
    have hreader : r.reader = { r.reader with place := .classStart } := by
      rw [Reading.reader, hmode]
      rfl
    by_cases hmark : c = '!' ∨ c = '^'
    · simp only [hmark, if_true]
      refine h.extend ['^'] rfl rfl h.depth_eq rfl ?_
      rw [hreader]
      rfl
    · have hr : r.stepInClass false [] c = { r with mode := .inClass false [c] } :=
        if_neg fun h => h.2 rfl
      have hw : w.stepInClass true c = { w.write (classEscape c) with place := .inClass false } :=
        if_neg fun h => Bool.noConfusion h.2
      simp only [hmark, if_false, hr, Mode.rendering, hw]
      refine h.extend (classEscape c) rfl rfl h.depth_eq rfl ?_
      rw [hreader, Expression.Reader.foldl_classEscape_first]
      rfl
  | inClass negated body =>
    rw [hplace, hmode]
    exact h.stepInClass hmode c

theorem run (h : Mirrors r w) (text : List Char) :
    Mirrors (text.foldl Reading.step r) (text.foldl Rendering.step w) := by
  induction text generalizing r w with
  | nil => exact h
  | cons c text ih => exact ih (h.step c)

end Mirrors

theorem mirrors_start : Mirrors .start .start where
  place_eq := rfl
  depth_eq := rfl
  read_eq := fun _ => rfl
  refused := fun h => Bool.noConfusion h

/-! ## Compiling -/

/-- Between the anchors it is read what has been written. -/
theorem read?_anchored (w : Rendering) :
    Expression.read? (anchored w.out)
      = ([')', '$'].foldl Expression.Reader.step w.read).finish? := by
  have hstart : ['^', '(', '?', ':'].foldl Expression.Reader.step .start = .inGroup := rfl
  have hsplit : anchored w.out
      = ['(', '?', 'i', ')'] ++ (['^', '(', '?', ':'] ++ (w.out ++ [')', '$'])) := by
    simp [anchored]
  rw [hsplit]
  show ((['^', '(', '?', ':'] ++ (w.out ++ [')', '$'])).foldl Expression.Reader.step .start).finish?
    = _
  rw [List.foldl_append, hstart, List.foldl_append]
  rfl

/-- What the parts of a pattern leave in hand. -/
theorem foldl_step_of_partsOf {source : String} {parts : List Part}
    (h : partsOf source = .ok parts) :
    source.toList.foldl Reading.step .start = ⟨.outside, ⟨[], parts.reverse⟩, [], false⟩ := by
  obtain ⟨pieces, htext, hwritten⟩ := partsOf_eq_ok_iff.mp h
  rw [htext, Reading.foldl_textOf rfl, hwritten.foldl_take rfl (fun _ => rfl),
    Reading.addAll_eq rfl]
  simp [Reading.start, Branches.start]

/-- How the two end: with the same fault, or both well except that only the reader of parts knows
of a reversed range. -/
theorem Mirrors.finish {r : Reading} {w : Rendering} (h : Mirrors r w) :
    (∃ fault, r.finish = .error fault ∧ w.finish = .error fault) ∨
      w.finish = .ok w.out ∧ r.finish = .error .reversedRange ∧ r.reversedRange = true ∨
      w.finish = .ok w.out ∧ r.finish = .ok r.level.current.reverse ∧ r.reversedRange = false := by
  have hplace := h.place_eq
  have hdepth := h.depth_eq
  obtain ⟨mode, level, outer, reversed⟩ := r
  unfold Rendering.finish
  rw [hplace, hdepth]
  cases mode with
  | escaped => exact .inl ⟨_, rfl, rfl⟩
  | classStart => exact .inl ⟨_, rfl, rfl⟩
  | inClass negated body => exact .inl ⟨_, rfl, rfl⟩
  | outside =>
    cases outer with
    | cons around outer => exact .inl ⟨_, rfl, rfl⟩
    | nil =>
      cases reversed with
      | true => exact .inr (.inl ⟨rfl, rfl, rfl⟩)
      | false => exact .inr (.inr ⟨rfl, rfl, rfl⟩)

/-- A reader that has refused the pattern refuses the whole. -/
theorem finish?_refused {e : Expression.Reader} (h : e.place = .refused) (text : List Char) :
    (text.foldl Expression.Reader.step e).finish? = none := by
  unfold Expression.Reader.finish?
  rw [Expression.Reader.foldl_refused h]

/-- What follows the pattern closes its group and adds the second anchor. -/
theorem finish?_reader (parts : List Part) :
    ([')', '$'].foldl Expression.Reader.step
      (Reading.reader ⟨.outside, ⟨[], parts.reverse⟩, [], false⟩)).finish?
      = some (wholeText parts) := by
  show some [[Expression.startOfText, .group [(parts.reverse.map Part.expression).reverse],
    .endOfText]] = _
  rw [List.map_reverse, List.reverse_reverse, wholeText, expressions_eq_map]

/-- **A pattern compiles to the expressions of its parts.** -/
theorem compile_eq (source : String) : compile source = (partsOf source).map wholeText := by
  have hmirrors := mirrors_start.run source.toList
  have hread? := read?_anchored (source.toList.foldl Rendering.step .start)
  rcases hmirrors.finish with ⟨fault, hparts, hrender⟩ | ⟨hrender, hparts, hreversed⟩ |
    ⟨hrender, hparts, hreversed⟩
  · rw [compile, render, hrender, partsOf, hparts]
    rfl
  · rw [finish?_refused (hmirrors.refused hreversed)] at hread?
    simp only [compile, render, hrender, partsOf, hparts, bind, Except.bind, hread?]
    rfl
  · have hstate := foldl_step_of_partsOf hparts
    rw [hmirrors.read_eq hreversed, hstate, finish?_reader] at hread?
    simp only [compile, render, hrender, partsOf, hparts, bind, Except.bind, hread?]
    rfl

example : render "a.\x7bb,[!]^]?\x7d" = .ok "a\\.(?:b|[^\\]\\^].)".toList := by rfl

end LinkedDocs.Glob
