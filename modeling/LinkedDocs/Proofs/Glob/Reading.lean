import LinkedDocs.Glob.Pattern
import LinkedDocs.Proofs.Glob.Grammar
import Mathlib.Data.List.Induction

/-!
# Reading a pattern is parsing it

The reader takes one character at a time, but what it has in hand changes with whole pieces only
(`foldl_textOf`): between two pieces it is outside classes and escapes. So a pattern is followed
piece by piece here, in both directions.

What is written is read: pieces that write parts add just these parts to the current level
(`Written.foldl_take`, along the grammar). And what has been read is written: `Spells` says of the
levels in hand how the pieces so far are put together, and every piece keeps it (`spells_take`). At
the end, with no level left open, that is the grammar:

> `partsOf_eq_ok_iff`: a pattern has the parts that its pieces write.

The grammar here reads classes as the reader does, operators and all; `partsOf_eq_ok_iff_written` is
the same for the grammar of members alone.
-/

namespace LinkedDocs.Glob

/-- How the reader reads the body of a class. -/
def ReadAs (negated : Bool) (body : List Char) (k : CharClass) : Prop :=
  CharClass.ofBody? negated body = some k

namespace Reading

/-! ## From characters to pieces -/

/-- Takes a piece. -/
def take (r : Reading) : Piece → Reading
  | .char c _ => r.stepOutside c
  | .escaped c => r.add (.literal c)
  | .charClass text _ =>
    match CharClass.ofBody? text.mark.negates text.body with
    | some k => r.add (.oneOf k)
    | none => { r with mode := .outside, reversedRange := true }

theorem take_opening (r : Reading) :
    r.take .opening = { r with level := .start, outer := r.level :: r.outer } := rfl

theorem take_comma {r : Reading} (h : r.outer ≠ []) :
    r.take .comma = { r with level := r.level.split } := by
  obtain ⟨around, outer, houter⟩ := List.exists_cons_of_ne_nil h
  simp [Piece.comma, take, stepOutside, houter]

theorem take_closing {r : Reading} {around : Branches} {outer : List Branches}
    (h : r.outer = around :: outer) :
    r.take .closing = { r with level := around.add (.alternation r.level.all), outer } := by
  simp [Piece.closing, take, stepOutside, h]

/-- A character without another meaning is read as itself. -/
theorem stepOutside_of_standsForItself {r : Reading} {inside : Bool} {c : Char}
    (hinside : inside = false → r.outer = []) (hplain : c ≠ '\\' ∧ c ≠ '[')
    (hc : StandsForItself inside c) : r.stepOutside c = r.add (.literal c) := by
  obtain ⟨hmeaning, hbranch⟩ := hc
  simp only [List.mem_cons, List.not_mem_nil, or_false, not_or] at hmeaning hbranch
  unfold stepOutside
  split
  all_goals simp_all

theorem mode_add (r : Reading) (part : Part) : (r.add part).mode = .outside := rfl

theorem mode_take {r : Reading} (h : r.mode = .outside) (piece : Piece) :
    (r.take piece).mode = .outside := by
  cases piece with
  | char c plain =>
    show (r.stepOutside c).mode = _
    obtain ⟨hescape, hclass⟩ := plain
    unfold stepOutside
    split
    all_goals first | exact mode_add _ _ | exact h | contradiction
  | escaped c => rfl
  | charClass text nonempty =>
    show (match CharClass.ofBody? text.mark.negates text.body with
      | some k => r.add (.oneOf k)
      | none => { r with mode := .outside, reversedRange := true }).mode = _
    split
    · rfl
    · rfl

theorem mode_foldl_take {r : Reading} (h : r.mode = .outside) (pieces : List Piece) :
    (pieces.foldl take r).mode = .outside := by
  induction pieces generalizing r with
  | nil => exact h
  | cons piece pieces ih => exact ih (mode_take h piece)

/-- In a class, everything up to the closing bracket is a member. -/
theorem foldl_members {members : List Char} (hmembers : ']' ∉ members) :
    ∀ (r : Reading) (negated : Bool) (body : List Char),
      members.foldl step { r with mode := .inClass negated body }
        = { r with mode := .inClass negated (members.reverse ++ body) } := by
  induction members with
  | nil => exact fun r negated body => rfl
  | cons c members ih =>
    intro r negated body
    rw [List.mem_cons, not_or] at hmembers
    have hstep : step { r with mode := .inClass negated body } c
        = { r with mode := .inClass negated (c :: body) } := by
      show stepInClass _ negated body c = _
      rw [stepInClass, if_neg fun h => hmembers.1 h.1.symm]
    rw [List.foldl_cons, hstep, ih hmembers.2, List.reverse_cons, List.append_assoc]
    rfl

/-- The body of a class, with its first member whatever that is. -/
theorem foldl_body {body : List Char} (hbody : ']' ∉ body.tail) (r : Reading) (negated : Bool) :
    body.foldl step { r with mode := .inClass negated [] }
      = { r with mode := .inClass negated body.reverse } := by
  cases body with
  | nil => rfl
  | cons c members =>
    have hstep : step { r with mode := .inClass negated [] } c
        = { r with mode := .inClass negated [c] } := by
      show stepInClass _ negated [] c = _
      rw [stepInClass, if_neg fun h => h.2 rfl]
    rw [List.foldl_cons, hstep, foldl_members (by exact hbody), List.reverse_cons]

end Reading

/-- Where the reader is after a class that is not closed. -/
def ClassText.mode (k : ClassText) : Mode :=
  if k.mark = .none ∧ k.body = [] then .classStart else .inClass k.mark.negates k.body.reverse

namespace Reading

theorem foldl_classText {r : Reading} (h : r.mode = .outside) (k : ClassText) :
    ('[' :: k.text).foldl step r = { r with mode := k.mode } := by
  have hopen : step r '[' = { r with mode := .classStart } := by
    rw [step, h]
    rfl
  rw [List.foldl_cons, hopen, ClassText.text, List.foldl_append, ClassText.mode]
  obtain ⟨mark, body, hunmarked, hbody⟩ := k
  cases mark with
  | exclamation => exact foldl_body hbody r true
  | caret => exact foldl_body hbody r true
  | none =>
    cases body with
    | nil => rfl
    | cons c members =>
      obtain ⟨hexclamation, hcaret⟩ := hunmarked rfl
      -- without a mark the first member is taken as it would be after one
      have hfirst : step { r with mode := .classStart } c
          = step { r with mode := .inClass false [] } c := by
        show (if c = '!' ∨ c = '^' then _ else stepInClass _ false [] c) = _
        rw [if_neg]
        · rfl
        · rintro (rfl | rfl)
          · exact hexclamation rfl
          · exact hcaret rfl
      have hrun := foldl_body hbody r false
      rw [List.foldl_cons, ← hfirst] at hrun
      rw [if_neg fun h => List.cons_ne_nil _ _ h.2]
      exact hrun

/-- The text of a piece has the effect of the piece. -/
theorem foldl_text {r : Reading} (h : r.mode = .outside) (piece : Piece) :
    piece.text.foldl step r = r.take piece := by
  cases piece with
  | char c plain =>
    show r.step c = r.stepOutside c
    rw [step, h]
  | escaped c =>
    have hescape : step r '\\' = { r with mode := .escaped } := by
      rw [step, h]
      rfl
    show step (step r '\\') c = _
    rw [hescape]
    rfl
  | charClass k nonempty =>
    have hmode : k.mode = .inClass k.mark.negates k.body.reverse := if_neg fun h => nonempty h.2
    rw [Piece.text, List.foldl_append, foldl_classText h, hmode]
    show stepInClass _ k.mark.negates k.body.reverse ']' = _
    rw [stepInClass, if_pos ⟨rfl, by simpa using nonempty⟩, List.reverse_reverse]
    rfl

theorem foldl_textOf {r : Reading} (h : r.mode = .outside) (pieces : List Piece) :
    (textOf pieces).foldl step r = pieces.foldl take r := by
  induction pieces generalizing r with
  | nil => rfl
  | cons piece pieces ih =>
    rw [textOf_cons, List.foldl_append, foldl_text h, List.foldl_cons, ih (mode_take h piece)]

/-! ## What is written is read -/

/-- Adds parts, one after the other. -/
def addAll (r : Reading) (parts : List Part) : Reading := parts.foldl add r

theorem addAll_eq {r : Reading} (h : r.mode = .outside) (parts : List Part) :
    r.addAll parts
      = { r with level := { r.level with current := parts.reverse ++ r.level.current } } := by
  induction parts generalizing r with
  | nil => rfl
  | cons part parts ih =>
    show (r.add part).addAll parts = _
    rw [ih (mode_add r part), List.reverse_cons, List.append_assoc]
    show { r with mode := .outside, level := _ } = _
    rw [← h]
    rfl

end Reading

open Reading in
mutual

theorem WrittenPart.foldl_take : ∀ {inside pieces part}, WrittenPart ReadAs inside pieces part →
    ∀ {r : Reading}, r.mode = .outside → (inside = false → r.outer = []) →
      pieces.foldl take r = r.add part
  | _, _, _, @WrittenPart.literal _ _ _ plain hc, r, _, hinside =>
    stepOutside_of_standsForItself hinside plain hc
  | _, _, _, .escaped, _, _, _ => rfl
  | _, _, _, .anyRun, _, _, _ => rfl
  | _, _, _, .anyOne, _, _, _ => rfl
  | _, _, _, .oneOf hk, r, _, _ => by
    rw [ReadAs] at hk
    simp only [List.foldl_cons, List.foldl_nil, take, hk]
  | _, _, _, @WrittenPart.alternation _ _ _ branches hbranches, r, h, _ => by
    have hopened := hbranches.foldl_take (r := r.take .opening) h (List.cons_ne_nil _ _) rfl
    obtain ⟨level, hread, hall⟩ := hopened
    rw [List.cons_append, List.foldl_cons, List.foldl_append, hread, List.foldl_cons,
      List.foldl_nil, take_closing rfl, hall]
    show { r with mode := r.mode, level := r.level.add (.alternation branches) } = _
    rw [h]
    rfl

/-- What is written is read: the parts are added to the current level. -/
theorem Written.foldl_take : ∀ {inside pieces parts}, Written ReadAs inside pieces parts →
    ∀ {r : Reading}, r.mode = .outside → (inside = false → r.outer = []) →
      pieces.foldl take r = r.addAll parts
  | _, _, _, .nil, _, _, _ => rfl
  | _, _, _, .cons hpart hrest, r, h, hinside => by
    rw [List.foldl_append, hpart.foldl_take h hinside]
    exact hrest.foldl_take (mode_add r _) hinside

theorem WrittenBranches.foldl_take : ∀ {pieces branches}, WrittenBranches ReadAs pieces branches →
    ∀ {r : Reading}, r.mode = .outside → r.outer ≠ [] → r.level.current = [] →
      ∃ level, pieces.foldl take r = { r with level } ∧
        level.all = r.level.finished.reverse ++ branches
  | _, _, .last hparts, r, h, _, hcurrent => by
    rw [hparts.foldl_take h (fun h => Bool.noConfusion h), addAll_eq h]
    refine ⟨_, rfl, ?_⟩
    simp [Branches.all, Branches.split, hcurrent]
  | _, _, @WrittenBranches.more _ _ parts _ _ hparts hrest, r, h, houter, hcurrent => by
    have hcomma : (r.addAll parts).take .comma
        = { r with level := ⟨parts :: r.level.finished, []⟩ } := by
      rw [addAll_eq h, take_comma (by exact houter)]
      simp [Branches.split, hcurrent]
    rw [List.foldl_append, hparts.foldl_take h (fun h => Bool.noConfusion h), List.foldl_cons,
      hcomma]
    obtain ⟨level, hread, hall⟩ :=
      hrest.foldl_take (r := { r with level := ⟨parts :: r.level.finished, []⟩ }) h houter rfl
    refine ⟨level, hread, ?_⟩
    rw [hall, List.reverse_cons, List.append_assoc]
    rfl

end

/-! ## What has been read is written -/

/-- The pieces write the finished branches, the last one first, each with a comma after it. -/
inductive Done : List (List Part) → List Piece → Prop where
  | nil : Done [] []
  | cons {finished done parts branch} : Done finished done → Written ReadAs true branch parts →
    Done (parts :: finished) (done ++ (branch ++ [.comma]))

/-- The pieces are those of the levels in hand, the outermost level first. -/
inductive Spells : Branches → List Branches → List Piece → Prop where
  | outermost {current pieces} : Written ReadAs false pieces current.reverse →
    Spells ⟨[], current⟩ [] pieces
  | nested {around outer before finished current done branch} : Spells around outer before →
    Done finished done → Written ReadAs true branch current.reverse →
    Spells ⟨finished, current⟩ (around :: outer) (before ++ .opening :: (done ++ branch))

/-- Finished branches stand in front of those that follow. -/
theorem Done.branches {finished : List (List Part)} {done : List Piece} (h : Done finished done) :
    ∀ {rest branches}, WrittenBranches ReadAs rest branches →
      WrittenBranches ReadAs (done ++ rest) (finished.reverse ++ branches) := by
  induction h with
  | nil => exact fun hrest => hrest
  | cons _ hbranch ih =>
    intro rest branches hrest
    have hmore := ih (.more hbranch hrest)
    simpa using hmore

theorem Spells.add {level : Branches} {outer : List Branches} {pieces item : List Piece}
    {part : Part} (h : Spells level outer pieces)
    (hpart : WrittenPart ReadAs (!outer.isEmpty) item part) :
    Spells (level.add part) outer (pieces ++ item) := by
  cases h with
  | outermost hcurrent =>
    refine .outermost ?_
    rw [List.reverse_cons]
    exact hcurrent.append hpart.single
  | nested hbefore hdone hbranch =>
    have hcurrent := hbranch.append hpart.single
    rw [← List.reverse_cons] at hcurrent
    have hspells := Spells.nested hbefore hdone hcurrent
    simpa [Branches.add] using hspells

theorem Spells.split {level around : Branches} {outer : List Branches} {pieces : List Piece}
    (h : Spells level (around :: outer) pieces) :
    Spells level.split (around :: outer) (pieces ++ [.comma]) := by
  cases h with
  | nested hbefore hdone hbranch =>
    have hempty : Written ReadAs true [] ([] : List Part).reverse := .nil
    have hspells := Spells.nested hbefore (.cons hdone hbranch) hempty
    simpa [Branches.split] using hspells

theorem Spells.close {level around : Branches} {outer : List Branches} {pieces : List Piece}
    (h : Spells level (around :: outer) pieces) :
    Spells (around.add (.alternation level.all)) outer (pieces ++ [.closing]) := by
  cases h with
  | nested hbefore hdone hbranch =>
    have hbranches := hdone.branches (.last hbranch)
    have hspells := hbefore.add (.alternation hbranches)
    simpa [Branches.all, Branches.split] using hspells

/-- A class that cannot be read: the ends of a range are in the wrong order. -/
def Piece.Unreadable : Piece → Prop
  | .charClass text _ => CharClass.ofBody? text.mark.negates text.body = none
  | _ => False

namespace Reading

/-- Every piece that can be read keeps to the grammar. -/
theorem spells_take {r : Reading} {pieces : List Piece} (h : Spells r.level r.outer pieces)
    {piece : Piece} (hreadable : ¬ piece.Unreadable) :
    Spells (r.take piece).level (r.take piece).outer (pieces ++ [piece]) := by
  obtain ⟨mode, level, outer, reversed⟩ := r
  cases piece with
  | escaped c => exact h.add .escaped
  | charClass text nonempty =>
    cases hclass : CharClass.ofBody? text.mark.negates text.body with
    | none => exact absurd hclass hreadable
    | some k =>
      simp only [take, hclass]
      exact h.add (.oneOf hclass)
  | char c plain =>
    rcases standsForItself_or (!outer.isEmpty) c with hc | rfl | rfl | rfl | ⟨hinside, rfl | rfl⟩
    · rw [take, stepOutside_of_standsForItself (by simp) plain hc]
      exact h.add (.literal hc)
    · exact h.add .anyRun
    · exact h.add .anyOne
    · exact .nested h .nil .nil
    · cases outer with
      | nil => cases hinside
      | cons around outer => exact h.split
    · cases outer with
      | nil => cases hinside
      | cons around outer => exact h.close

theorem spells_foldl_take {pieces : List Piece} (h : ∀ piece ∈ pieces, ¬ piece.Unreadable) :
    Spells (pieces.foldl take start).level (pieces.foldl take start).outer pieces := by
  induction pieces using List.reverseRecOn with
  | nil => exact .outermost .nil
  | append_singleton pieces piece ih =>
    rw [List.foldl_append]
    exact spells_take (ih fun other hother => h other (List.mem_append_left _ hother))
      (h piece (List.mem_append_right _ (List.mem_singleton_self piece)))

/-! ## Reading as parsing -/

theorem reversedRange_take_iff (r : Reading) (piece : Piece) :
    (r.take piece).reversedRange = true ↔ r.reversedRange = true ∨ piece.Unreadable := by
  cases piece with
  | escaped c => simp [take, add, Piece.Unreadable]
  | charClass text nonempty =>
    cases hclass : CharClass.ofBody? text.mark.negates text.body with
    | none => simp [take, hclass, Piece.Unreadable]
    | some k => simp [take, hclass, Piece.Unreadable, add]
  | char c plain =>
    have hkept : (r.stepOutside c).reversedRange = r.reversedRange := by
      unfold stepOutside
      split
      all_goals rfl
    simp [take, hkept, Piece.Unreadable]

theorem reversedRange_foldl_take_iff (r : Reading) (pieces : List Piece) :
    (pieces.foldl take r).reversedRange = true ↔
      r.reversedRange = true ∨ ∃ piece ∈ pieces, piece.Unreadable := by
  induction pieces generalizing r with
  | nil => simp
  | cons piece pieces ih => simp [ih, reversedRange_take_iff, or_assoc]

end Reading

open Reading

theorem finish_eq_ok_iff {r : Reading} (h : r.mode = .outside) (parts : List Part) :
    r.finish = .ok parts ↔
      r.outer = [] ∧ r.reversedRange = false ∧ r.level.current.reverse = parts := by
  unfold Reading.finish
  rw [h]
  by_cases houter : r.outer = []
  · cases hreversed : r.reversedRange with
    | true => simp [houter]
    | false => simp [houter]
  · simp [houter]

/-- At the end of the pieces of a pattern the reader is outside classes and escapes. -/
theorem partsOf_textOf {source : String} {pieces : List Piece}
    (h : source.toList = textOf pieces) : partsOf source = (pieces.foldl take start).finish := by
  rw [partsOf, h, foldl_textOf rfl]

theorem partsOf_loneEscape {source : String} {pieces : List Piece}
    (h : source.toList = textOf pieces ++ ['\\']) : partsOf source = .error .trailingEscape := by
  have hmode := mode_foldl_take (r := start) rfl pieces
  have hescaped : step (pieces.foldl take start) '\\'
      = { pieces.foldl take start with mode := .escaped } := by
    rw [step, hmode]
    rfl
  rw [partsOf, h, List.foldl_append, foldl_textOf rfl, List.foldl_cons, hescaped]
  rfl

theorem partsOf_openClass {source : String} {pieces : List Piece} {k : ClassText}
    (h : source.toList = textOf pieces ++ '[' :: k.text) :
    partsOf source = .error .unclosedClass := by
  have hmode := mode_foldl_take (r := start) rfl pieces
  rw [partsOf, h, List.foldl_append, foldl_textOf rfl, foldl_classText hmode, ClassText.mode]
  by_cases hstart : k.mark = .none ∧ k.body = []
  · rw [if_pos hstart]
    rfl
  · rw [if_neg hstart]
    rfl

/-- **A pattern has the parts that its pieces write.** -/
theorem partsOf_eq_ok_iff {source : String} {parts : List Part} :
    partsOf source = .ok parts ↔
      ∃ pieces, source.toList = textOf pieces ∧ Written ReadAs false pieces parts := by
  constructor
  · intro h
    obtain ⟨pieces, ending, htext, hending⟩ := exists_pieces source.toList
    cases hending with
    | escape =>
      rw [partsOf_loneEscape htext] at h
      cases h
    | openClass k =>
      rw [partsOf_openClass htext] at h
      cases h
    | none =>
      rw [List.append_nil] at htext
      rw [partsOf_textOf htext, finish_eq_ok_iff (mode_foldl_take rfl pieces)] at h
      obtain ⟨houter, hreversed, rfl⟩ := h
      have hreadable : ∀ piece ∈ pieces, ¬ piece.Unreadable := by
        intro piece hpiece hunreadable
        have := (reversedRange_foldl_take_iff start pieces).mpr (.inr ⟨piece, hpiece, hunreadable⟩)
        rw [hreversed] at this
        cases this
      have hspells := spells_foldl_take hreadable
      rw [houter] at hspells
      refine ⟨pieces, htext, ?_⟩
      generalize (pieces.foldl take start).level = level at hspells
      cases hspells with
      | outermost hwritten => exact hwritten
  · rintro ⟨pieces, htext, hwritten⟩
    rw [partsOf_textOf htext, hwritten.foldl_take rfl (fun _ => rfl), addAll_eq rfl,
      finish_eq_ok_iff rfl]
    refine ⟨rfl, rfl, ?_⟩
    simp [start, Branches.start]

/-- With its hyphens apart a class is read as the grammar has it. -/
theorem readAs_iff {negated : Bool} {body : List Char} (h : HyphensApart body) (k : CharClass) :
    ReadAs negated body k ↔ CharClass.Written negated body k := by
  constructor
  · intro hread
    by_cases hreversed : HasReversedRange body
    · rw [ReadAs, ofBody?_of_hasReversedRange hreversed h] at hread
      cases hread
    · obtain ⟨k', hk'⟩ := exists_written negated hreversed
      rw [ReadAs, ofBody?_of_written hk' h] at hread
      cases hread
      exact hk'
  · intro hwritten
    exact ofBody?_of_written hwritten h

/-- Where no class has adjacent hyphens, parsing is by the grammar alone. -/
theorem partsOf_eq_ok_iff_written {source : String} (hapart : ClassHyphensApart source.toList)
    {parts : List Part} :
    partsOf source = .ok parts ↔
      ∃ pieces, source.toList = textOf pieces ∧
        Written CharClass.Written false pieces parts := by
  rw [partsOf_eq_ok_iff]
  constructor
  · rintro ⟨pieces, htext, hwritten⟩
    exact ⟨pieces, htext, hwritten.mono fun text nonempty hmem k =>
      (readAs_iff (hapart pieces htext text nonempty hmem) k).mp⟩
  · rintro ⟨pieces, htext, hwritten⟩
    exact ⟨pieces, htext, hwritten.mono fun text nonempty hmem k =>
      (readAs_iff (hapart pieces htext text nonempty hmem) k).mpr⟩

end LinkedDocs.Glob
