import LinkedDocs.Selector.Reader
import Mathlib.Data.List.TakeWhile

/-!
# The grammar of written selectors

`Derives`, `DerivesTail` and `DerivesItems` are the rules of the written form, one constructor for
each alternative. They know nothing of a reader: a text is derived or not, and if so as a selector.

The reader goes through the text once, with the open references on a stack. What ties the two is
that a selector that has been read leaves the reader as `State.complete` has it:

> `run_of_derives`: reading a derived text completes its selector, whatever is open around it.
> `derives_of_run`: what is read with success begins with a derived text, whose selector is
> completed.

Both together say that the reader accepts the derived texts and no others (`read_iff_derived`). As
the reader has one result, a text is derived as one selector only.
-/

namespace LinkedDocs.Selector

/-! ## The rules -/

/-- White space, or nothing. -/
def Blank (text : List Char) : Prop := ∀ c ∈ text, Text.isBlank c = true

/-- One or more letters, digits, `_`, `-`, `$` or `:`. -/
def Identifier (text : List Char) : Prop :=
  text ≠ [] ∧ ∀ c ∈ text, Text.isAlphanumeric c = true ∨ c ∈ ['_', '-', '$', ':']

mutual

/-- The text is a selector, without white space around it. -/
inductive Derives : List Char → Selector → Prop where
  | wildcard : Derives ['*'] .wildcard
  | field {name} : Identifier name → Derives name (.field (String.ofList name))
  | one {target tail sub} : Identifier target → DerivesTail tail sub →
    Derives ('@' :: (target ++ tail)) (.one (String.ofList target) sub)
  | many {target tail sub} : Identifier target → DerivesTail tail sub →
    Derives ('@' :: '[' :: (target ++ ']' :: tail)) (.many (String.ofList target) sub .unrestricted)

/-- The text is what stands below a reference. -/
inductive DerivesTail : List Char → Option Selector → Prop where
  | nothing : DerivesTail [] none
  | chain {space text selector} : Blank space → Derives text selector →
    DerivesTail ('.' :: (space ++ text)) (some selector)
  | group {text items} : DerivesItems text items → DerivesTail ('(' :: text) (some (.list items))

/-- The text is one or more selectors with commas between them, up to the closing parenthesis. -/
inductive DerivesItems : List Char → List Selector → Prop where
  | last {space text space' selector} : Blank space → Derives text selector → Blank space' →
    DerivesItems (space ++ (text ++ (space' ++ [')']))) [selector]
  | more {space text space' selector rest items} : Blank space → Derives text selector →
    Blank space' → DerivesItems rest items →
    DerivesItems (space ++ (text ++ (space' ++ ',' :: rest))) (selector :: items)

end

/-- The text is a selector with white space before and after it, or none. -/
def Written (text : List Char) (selector : Selector) : Prop :=
  ∃ space derived space', text = space ++ (derived ++ space') ∧ Blank space ∧
    Derives derived selector ∧ Blank space'

/-! ## Characters -/

/-- Letters and digits are no white space. -/
theorem isBlank_of_isAlphanumeric {c : Char} (h : Text.isAlphanumeric c = true) :
    Text.isBlank c = false := by
  have apart : ∀ range ∈ Text.alphanumerics, ∀ blank ∈ Text.blanks,
      range.2 < blank.1 ∨ blank.2 < range.1 := by decide +kernel
  have hrange : ∃ range ∈ Text.alphanumerics, range.1 ≤ c.toNat ∧ c.toNat ≤ range.2 := by
    rw [Text.isAlphanumeric, Bool.or_eq_true, Text.CodePoints.has_iff] at h
    rcases h with hascii | htable
    · have hranges : (65 ≤ c.toNat ∧ c.toNat ≤ 90 ∨ 97 ≤ c.toNat ∧ c.toNat ≤ 122) ∨
          48 ≤ c.toNat ∧ c.toNat ≤ 57 := by
        change (decide (65 ≤ c.val ∧ c.val ≤ 90) || decide (97 ≤ c.val) && decide (c.val ≤ 122) ||
          decide (48 ≤ c.val) && decide (c.val ≤ 57)) = true at hascii
        simpa [UInt32.le_iff_toNat_le] using hascii
      rcases hranges with (hupper | hlower) | hdigit
      · exact ⟨(65, 90), by decide +kernel, hupper⟩
      · exact ⟨(97, 122), by decide +kernel, hlower⟩
      · exact ⟨(48, 57), by decide +kernel, hdigit⟩
    · exact htable
  obtain ⟨range, hmem, hlow, hhigh⟩ := hrange
  rw [← Bool.not_eq_true, Text.isBlank, Text.CodePoints.has_iff]
  rintro ⟨blank, hblank, hlow', hhigh'⟩
  have := apart range hmem blank hblank
  omega

theorem isIdentChar_iff (c : Char) :
    isIdentChar c = true ↔ Text.isAlphanumeric c = true ∨ c ∈ ['_', '-', '$', ':'] := by
  simp only [isIdentChar, Bool.or_eq_true, beq_iff_eq, List.mem_cons, List.not_mem_nil, or_false,
    or_assoc]

theorem isBlank_of_isIdentChar {c : Char} (h : isIdentChar c = true) : Text.isBlank c = false := by
  rcases (isIdentChar_iff c).mp h with h | h
  · exact isBlank_of_isAlphanumeric h
  · simp only [List.mem_cons, List.not_mem_nil, or_false] at h
    rcases h with rfl | rfl | rfl | rfl <;> decide +kernel

theorem identifier_iff (text : List Char) :
    Identifier text ↔ text ≠ [] ∧ ∀ c ∈ text, isIdentChar c = true := by
  simp only [Identifier, isIdentChar_iff]

/-- The text does not go on with a character of an identifier. -/
def Breaks (text : List Char) : Prop := ∀ c ∈ text.head?, isIdentChar c = false

theorem breaks_cons {c : Char} {rest : List Char} : Breaks (c :: rest) ↔ isIdentChar c = false := by
  simp [Breaks]

/-- An identifier, or nothing, and what comes after it. -/
theorem exists_name (text : List Char) :
    ∃ name rest, text = name ++ rest ∧ (∀ c ∈ name, isIdentChar c = true) ∧ Breaks rest := by
  refine ⟨text.takeWhile isIdentChar, text.dropWhile isIdentChar,
    List.takeWhile_append_dropWhile.symm, fun c hc => List.mem_takeWhile_imp hc, fun c hc => ?_⟩
  cases hrest : text.dropWhile isIdentChar with
  | nil =>
    rw [hrest] at hc
    cases hc
  | cons d rest =>
    have hd := List.head?_dropWhile_not isIdentChar text
    rw [hrest] at hc hd
    cases hc
    simpa using hd

/-- The text is at its end, or goes on with what can stand after a selector. -/
def Ends (text : List Char) : Prop :=
  ∀ c ∈ text.head?, Text.isBlank c = true ∨ c = ',' ∨ c = ')'

theorem ends_nil : Ends [] := nofun

theorem ends_cons {c : Char} {rest : List Char} :
    Ends (c :: rest) ↔ Text.isBlank c = true ∨ c = ',' ∨ c = ')' := by
  simp [Ends]

theorem ends_blank_append {space rest : List Char} (h : Blank space) (hrest : Ends rest) :
    Ends (space ++ rest) := by
  cases space with
  | nil => exact hrest
  | cons c space => exact ends_cons.mpr (.inl (h c (List.mem_cons_self ..)))

theorem Ends.breaks {text : List Char} (h : Ends text) : Breaks text := by
  intro c hc
  rcases h c hc with hblank | rfl | rfl
  · rw [← Bool.not_eq_true]
    intro hident
    rw [isBlank_of_isIdentChar hident] at hblank
    cases hblank
  · decide +kernel
  · decide +kernel

/-! ## Steps of the reader -/

namespace State

variable {frames : List Frame} {selector result : Selector}

/-- After a selector has been completed only what comes after it is taken. -/
theorem complete_cases (selector : Selector) (frames : List Frame) :
    (∃ whole, complete selector frames = .finished whole) ∨
      ∃ head items outer, complete selector frames = .afterItem head items outer := by
  induction frames generalizing selector with
  | nil => exact .inl ⟨selector, rfl⟩
  | cons frame frames ih =>
    cases frame with
    | chain head => exact ih _
    | group head items => exact .inr ⟨head, selector :: items, frames, rfl⟩

theorem step_complete (selector : Selector) (frames : List Frame) (c : Char) :
    (complete selector frames).step c = stepAfter (complete selector frames) c := by
  rcases complete_cases selector frames with ⟨whole, h⟩ | ⟨head, items, outer, h⟩ <;> rw [h] <;> rfl

theorem finish_complete (selector : Selector) (frames : List Frame) :
    (complete selector frames).finish = finish.settled (complete selector frames) := by
  rcases complete_cases selector frames with ⟨whole, h⟩ | ⟨head, items, outer, h⟩ <;> rw [h] <;> rfl

/-- White space before a selector is passed over. -/
theorem run_blank {space : List Char} (h : Blank space) (rest : List Char) :
    run (.before frames) (space ++ rest) = run (.before frames) rest := by
  induction space with
  | nil => rfl
  | cons c space ih =>
    have hc : Text.isBlank c = true := h c (List.mem_cons_self ..)
    rw [List.cons_append, run, step, if_pos hc]
    exact ih fun d hd => h d (List.mem_cons_of_mem c hd)

/-- A field is read up to the end of its name. -/
theorem run_inField {more rest : List Char} (hmore : ∀ c ∈ more, isIdentChar c = true)
    (hrest : Breaks rest) (name : List Char) :
    run (.inField name frames) (more ++ rest)
      = run (complete (.field (nameOf (more.reverse ++ name))) frames) rest := by
  induction more generalizing name with
  | nil =>
    cases rest with
    | nil => rw [List.append_nil, run, run, finish, finish_complete]; rfl
    | cons c rest =>
      have hc := breaks_cons.mp hrest
      rw [List.nil_append, run, run, step, if_neg (by simp [hc]), step_complete]
      rfl
  | cons c more ih =>
    have hc : isIdentChar c = true := hmore c (List.mem_cons_self ..)
    rw [List.cons_append, run, step, if_pos hc]
    refine (ih (fun d hd => hmore d (List.mem_cons_of_mem c hd)) (c :: name)).trans ?_
    rw [List.reverse_cons, List.append_assoc, List.singleton_append]

/-- The target of a reference is read up to the end of its name. -/
theorem run_inTarget {isMany : Bool} {more rest : List Char}
    (hmore : ∀ c ∈ more, isIdentChar c = true) (name : List Char) :
    run (.inTarget isMany name frames) (more ++ rest)
      = run (.inTarget isMany (more.reverse ++ name) frames) rest := by
  induction more generalizing name with
  | nil => rfl
  | cons c more ih =>
    have hc : isIdentChar c = true := hmore c (List.mem_cons_self ..)
    rw [List.cons_append, run, step, if_pos hc]
    refine (ih (fun d hd => hmore d (List.mem_cons_of_mem c hd)) (c :: name)).trans ?_
    rw [List.reverse_cons, List.append_assoc, List.singleton_append]

/-- Takes characters after the target of a reference. -/
def runTail (head : Head) (frames : List Frame) :
    List Char → Except (Expected × List Char) Selector
  | [] => run (complete (head.select none) frames) []
  | c :: rest =>
    match stepTail head frames c with
    | .ok next => run next rest
    | .error expected => .error (expected, c :: rest)

theorem run_afterTarget (target : String) (rest : List Char) :
    run (.afterTarget target frames) rest = runTail ⟨true, target⟩ frames rest := by
  cases rest with
  | nil => rw [runTail, run, run, finish, finish_complete]
  | cons c rest => rfl

/-- After the name of a single reference comes its tail. -/
theorem run_endOfTarget {name rest : List Char} (hname : name ≠ []) (hrest : Breaks rest) :
    run (.inTarget false name frames) rest = runTail ⟨false, nameOf name⟩ frames rest := by
  have hsome : name.isEmpty = false := by simpa using hname
  cases rest with
  | nil =>
    rw [runTail, run, run, finish, finish_complete]
    simp [hsome, Head.select]
  | cons c rest =>
    have hc := breaks_cons.mp hrest
    rw [run, step, if_neg (by simp [hc]), hsome]
    rfl

theorem run_star (rest : List Char) :
    run (.before frames) ('*' :: rest) = run (complete .wildcard frames) rest := rfl

theorem run_at (rest : List Char) :
    run (.before frames) ('@' :: rest) = run (.inTarget false [] frames) rest := rfl

theorem run_openBracket (rest : List Char) :
    run (.inTarget false [] frames) ('[' :: rest) = run (.inTarget true [] frames) rest := by
  have hopen : isIdentChar '[' = false := by decide +kernel
  simp [run, step, hopen]

/-- After the name of a many reference comes the bracket, then its tail. -/
theorem run_closeBracket {name : List Char} (hname : name ≠ []) (rest : List Char) :
    run (.inTarget true name frames) (']' :: rest) = runTail ⟨true, nameOf name⟩ frames rest := by
  have hclose : isIdentChar ']' = false := by decide +kernel
  rw [← run_afterTarget]
  simp [run, step, hclose, hname]

/-- A reference without anything below it is completed. -/
theorem runTail_of_ne {head : Head} {rest : List Char}
    (h : ∀ c ∈ rest.head?, c ≠ '.' ∧ c ≠ '(') :
    runTail head frames rest = run (complete (head.select none) frames) rest := by
  cases rest with
  | nil => rfl
  | cons c rest =>
    obtain ⟨hpoint, hgroup⟩ := h c rfl
    rw [runTail, stepTail, if_neg hpoint, if_neg hgroup, ← step_complete]
    rfl

/-! ## Derived texts are read -/

theorem ne_of_ends {text : List Char} (h : Ends text) : ∀ c ∈ text.head?, c ≠ '.' ∧ c ≠ '(' := by
  intro c hc
  rcases h c hc with hblank | rfl | rfl
  · constructor <;> rintro rfl <;> exact absurd hblank (by decide)
  · decide
  · decide

/-- After an item of a group comes white space, then a comma or the closing parenthesis. -/
theorem run_afterItem_blank {space : List Char} (h : Blank space) {head : Head}
    {items : List Selector} (rest : List Char) :
    run (.afterItem head items frames) (space ++ rest)
      = run (.afterItem head items frames) rest := by
  induction space with
  | nil => rfl
  | cons c space ih =>
    have hc : Text.isBlank c = true := h c (List.mem_cons_self ..)
    have hcomma : c ≠ ',' := by rintro rfl; exact absurd hc (by decide)
    have hclose : c ≠ ')' := by rintro rfl; exact absurd hc (by decide)
    rw [List.cons_append, run, step, stepAfter, if_neg hcomma, if_neg hclose, if_pos hc]
    exact ih fun d hd => h d (List.mem_cons_of_mem c hd)

theorem breaks_of_tail {tail rest : List Char} {sub : Option Selector} (h : DerivesTail tail sub)
    (hends : Ends rest) : Breaks (tail ++ rest) := by
  cases h with
  | nothing => exact hends.breaks
  | chain | group => exact breaks_cons.mpr (by decide +kernel)

mutual

/-- Reading a derived text completes its selector, whatever is open around it. -/
theorem run_of_derives {text : List Char} {selector : Selector} (frames : List Frame)
    {rest : List Char} (hends : Ends rest) : Derives text selector →
      run (.before frames) (text ++ rest) = run (complete selector frames) rest
  | .wildcard => run_star rest
  | @Derives.field name hname => by
    obtain ⟨hne, hall⟩ := (identifier_iff name).mp hname
    cases name with
    | nil => exact absurd rfl hne
    | cons c more =>
      have hc : isIdentChar c = true := hall c (List.mem_cons_self ..)
      have hstar : c ≠ '*' := by rintro rfl; exact absurd hc (by decide +kernel)
      have hat : c ≠ '@' := by rintro rfl; exact absurd hc (by decide +kernel)
      rw [List.cons_append, run, step, if_neg (by simp [isBlank_of_isIdentChar hc]),
        if_neg hstar, if_neg hat, if_pos hc]
      refine (run_inField (fun d hd => hall d (List.mem_cons_of_mem c hd)) hends.breaks
        [c]).trans ?_
      rw [nameOf, List.reverse_append, List.reverse_reverse]
      rfl
  | @Derives.one target tail _ htarget htail => by
    obtain ⟨hne, hall⟩ := (identifier_iff target).mp htarget
    have hname : target.reverse ++ [] ≠ [] := by simpa using hne
    rw [List.cons_append, List.append_assoc, run_at, run_inTarget hall,
      run_endOfTarget hname (breaks_of_tail htail hends), run_of_tail _ _ hends htail,
      List.append_nil, nameOf, List.reverse_reverse]
    rfl
  | @Derives.many target tail _ htarget htail => by
    obtain ⟨hne, hall⟩ := (identifier_iff target).mp htarget
    have hname : target.reverse ++ [] ≠ [] := by simpa using hne
    rw [List.cons_append, List.cons_append, List.append_assoc, List.cons_append, run_at,
      run_openBracket, run_inTarget hall, run_closeBracket hname, run_of_tail _ _ hends htail,
      List.append_nil, nameOf, List.reverse_reverse]
    rfl

theorem run_of_tail {tail : List Char} {sub : Option Selector} (head : Head) (frames : List Frame)
    {rest : List Char} (hends : Ends rest) : DerivesTail tail sub →
      runTail head frames (tail ++ rest) = run (complete (head.select sub) frames) rest
  | .nothing => runTail_of_ne (ne_of_ends hends)
  | @DerivesTail.chain space text _ hspace htext => by
    rw [List.cons_append, List.append_assoc]
    show run (.before (.chain head :: frames)) (space ++ (text ++ rest)) = _
    rw [run_blank hspace, run_of_derives _ hends htext]
    rfl
  | .group hitems => run_of_items head [] frames rest hitems

theorem run_of_items {text : List Char} {items : List Selector} (head : Head)
    (earlier : List Selector) (frames : List Frame) (rest : List Char) : DerivesItems text items →
      run (.before (.group head earlier :: frames)) (text ++ rest)
        = run (complete (head.select (some (.list (earlier.reverse ++ items)))) frames) rest
  | @DerivesItems.last space text space' selector hspace htext hspace' => by
    have hends : Ends (space' ++ ')' :: rest) := ends_blank_append hspace' (ends_cons.mpr (by simp))
    simp only [List.append_assoc, List.singleton_append]
    rw [run_blank hspace, run_of_derives _ hends htext]
    show run (.afterItem head (selector :: earlier) frames) (space' ++ ')' :: rest) = _
    rw [run_afterItem_blank hspace', ← List.reverse_cons]
    rfl
  | @DerivesItems.more space text space' selector later items hspace htext hspace' hitems => by
    have hends : Ends (space' ++ ',' :: (later ++ rest)) :=
      ends_blank_append hspace' (ends_cons.mpr (by simp))
    simp only [List.append_assoc, List.cons_append]
    rw [run_blank hspace, run_of_derives _ hends htext]
    show run (.afterItem head (selector :: earlier) frames) (space' ++ ',' :: (later ++ rest)) = _
    rw [run_afterItem_blank hspace']
    refine (run_of_items head (selector :: earlier) frames rest hitems).trans ?_
    rw [List.reverse_cons, List.append_assoc, List.singleton_append]

end

/-! ## What is read is derived -/

theorem step_finished (selector : Selector) (c : Char) :
    (State.finished selector).step c
      = if Text.isBlank c then .ok (.finished selector) else .error .nothing := rfl

/-- White space after a whole selector is passed over. -/
theorem run_finished {space : List Char} (h : Blank space) :
    run (.finished selector) space = .ok selector := by
  induction space with
  | nil => rfl
  | cons c space ih =>
    have hc : Text.isBlank c = true := h c (List.mem_cons_self ..)
    rw [run, step_finished, if_pos hc]
    exact ih fun d hd => h d (List.mem_cons_of_mem c hd)

/-- What comes after a whole selector is white space. -/
theorem of_run_finished {rest : List Char} (h : run (.finished selector) rest = .ok result) :
    Blank rest ∧ result = selector := by
  induction rest with
  | nil =>
    cases h
    exact ⟨nofun, rfl⟩
  | cons c rest ih =>
    rw [run, step_finished] at h
    by_cases hc : Text.isBlank c = true
    · rw [if_pos hc] at h
      obtain ⟨hblank, heq⟩ := ih h
      exact ⟨List.forall_mem_cons.mpr ⟨hc, hblank⟩, heq⟩
    · rw [if_neg hc] at h
      cases h

/-- What comes after an item of a group is white space, and then a comma or the closing
parenthesis. -/
theorem of_run_afterItem {head : Head} {items : List Selector} {text : List Char}
    (h : run (.afterItem head items frames) text = .ok result) :
    ∃ space rest, Blank space ∧
      ((text = space ++ ')' :: rest ∧
          run (complete (head.select (some (.list items.reverse))) frames) rest = .ok result) ∨
        (text = space ++ ',' :: rest ∧ run (.before (.group head items :: frames)) rest
          = .ok result)) := by
  induction text with
  | nil => cases h
  | cons c text ih =>
    rw [run, step, stepAfter] at h
    by_cases hcomma : c = ','
    · subst hcomma
      exact ⟨[], text, nofun, .inr ⟨rfl, h⟩⟩
    by_cases hclose : c = ')'
    · subst hclose
      exact ⟨[], text, nofun, .inl ⟨rfl, h⟩⟩
    rw [if_neg hcomma, if_neg hclose] at h
    by_cases hc : Text.isBlank c = true
    · rw [if_pos hc] at h
      obtain ⟨space, rest, hspace, hnext⟩ := ih h
      refine ⟨c :: space, rest, List.forall_mem_cons.mpr ⟨hc, hspace⟩, ?_⟩
      rcases hnext with ⟨rfl, hrun⟩ | ⟨rfl, hrun⟩
      · exact .inl ⟨rfl, hrun⟩
      · exact .inr ⟨rfl, hrun⟩
    · rw [if_neg hc] at h
      cases h

/-- After the opening bracket come a name, the closing bracket and the tail. -/
theorem of_run_inBracket {text : List Char} (h : run (.inTarget true [] frames) text = .ok result) :
    ∃ target rest, text = target ++ ']' :: rest ∧ Identifier target ∧
      runTail ⟨true, String.ofList target⟩ frames rest = .ok result := by
  obtain ⟨target, after, rfl, htarget, hbreaks⟩ := exists_name text
  rw [run_inTarget htarget, List.append_nil] at h
  by_cases hname : target = []
  · -- without a name nothing is accepted
    subst hname
    cases after with
    | nil => cases h
    | cons c after => simp [run, step, breaks_cons.mp hbreaks] at h
  have hsome : target.reverse ≠ [] := by simpa using hname
  cases after with
  | nil => simp [run, finish, hname, Except.mapError] at h
  | cons c after =>
    by_cases hclose : c = ']'
    · subst hclose
      rw [run_closeBracket hsome, nameOf, List.reverse_reverse] at h
      exact ⟨target, after, rfl, (identifier_iff _).mpr ⟨hname, htarget⟩, h⟩
    · simp [run, step, breaks_cons.mp hbreaks, hname, hclose] at h

/-- After the sign of a reference comes a name, maybe in brackets, and then the tail. -/
theorem of_run_inTarget {text : List Char} (h : run (.inTarget false [] frames) text = .ok result) :
    (∃ target rest, text = target ++ rest ∧ Identifier target ∧
        runTail ⟨false, String.ofList target⟩ frames rest = .ok result) ∨
      ∃ target rest, text = '[' :: (target ++ ']' :: rest) ∧ Identifier target ∧
        runTail ⟨true, String.ofList target⟩ frames rest = .ok result := by
  obtain ⟨target, rest, rfl, htarget, hbreaks⟩ := exists_name text
  by_cases hname : target = []
  · subst hname
    cases rest with
    | nil => cases h
    | cons c rest =>
      by_cases hopen : c = '['
      · subst hopen
        rw [List.nil_append, run_openBracket] at h
        obtain ⟨target, rest, rfl, hidentifier, htail⟩ := of_run_inBracket h
        exact .inr ⟨target, rest, rfl, hidentifier, htail⟩
      · simp [run, step, breaks_cons.mp hbreaks, hopen] at h
  · have hsome : target.reverse ++ [] ≠ [] := by simpa using hname
    rw [run_inTarget htarget, run_endOfTarget hsome hbreaks, List.append_nil, nameOf,
      List.reverse_reverse] at h
    exact .inl ⟨target, rest, rfl, (identifier_iff _).mpr ⟨hname, htarget⟩, h⟩

mutual

/-- What is read with success begins, after white space, with a derived text, whose selector is
completed. -/
theorem derives_of_run {text : List Char} {frames : List Frame} {result : Selector}
    (h : run (.before frames) text = .ok result) :
    ∃ space derived rest selector, text = space ++ (derived ++ rest) ∧ Blank space ∧
      Derives derived selector ∧ run (complete selector frames) rest = .ok result := by
  match text with
  | [] => cases h
  | c :: text =>
    by_cases hstar : c = '*'
    · subst hstar
      rw [run_star] at h
      exact ⟨[], ['*'], text, .wildcard, rfl, nofun, .wildcard, h⟩
    by_cases hat : c = '@'
    · subst hat
      rw [run_at] at h
      rcases of_run_inTarget h with ⟨target, after, htext, htarget, hafter⟩ |
        ⟨target, after, htext, htarget, hafter⟩
      · have hshort : after.length < ('@' :: text).length := by
          simp only [htext, List.length_cons, List.length_append]
          omega
        obtain ⟨tail, rest, sub, rfl, htail, hrest⟩ := derives_of_runTail hafter
        exact ⟨[], '@' :: (target ++ tail), rest, _, by simp [htext], nofun, .one htarget htail,
          hrest⟩
      · have hshort : after.length < ('@' :: text).length := by
          simp only [htext, List.length_cons, List.length_append]
          omega
        obtain ⟨tail, rest, sub, rfl, htail, hrest⟩ := derives_of_runTail hafter
        exact ⟨[], '@' :: '[' :: (target ++ ']' :: tail), rest, _, by simp [htext], nofun,
          .many htarget htail, hrest⟩
    rw [run, step] at h
    by_cases hblank : Text.isBlank c = true
    · rw [if_pos hblank] at h
      obtain ⟨space, derived, rest, selector, rfl, hspace, hnext⟩ := derives_of_run h
      exact ⟨c :: space, derived, rest, selector, rfl,
        List.forall_mem_cons.mpr ⟨hblank, hspace⟩, hnext⟩
    rw [if_neg hblank, if_neg hstar, if_neg hat] at h
    by_cases hident : isIdentChar c = true
    · rw [if_pos hident] at h
      obtain ⟨more, rest, rfl, hmore, hbreaks⟩ := exists_name text
      dsimp only at h
      rw [run_inField hmore hbreaks] at h
      have hname : Identifier (c :: more) :=
        (identifier_iff _).mpr ⟨by simp, List.forall_mem_cons.mpr ⟨hident, hmore⟩⟩
      refine ⟨[], c :: more, rest, _, by simp, nofun, .field hname, ?_⟩
      rwa [nameOf, List.reverse_append, List.reverse_reverse] at h
    · rw [if_neg hident] at h
      cases h
termination_by (text.length, 0)
decreasing_by all_goals exact Prod.Lex.left _ _ (by first | assumption | simp)

/-- What is read with success after a target begins with a derived tail. -/
theorem derives_of_runTail {head : Head} {text : List Char} {frames : List Frame}
    {result : Selector} (h : runTail head frames text = .ok result) :
    ∃ tail rest sub, text = tail ++ rest ∧ DerivesTail tail sub ∧
      run (complete (head.select sub) frames) rest = .ok result := by
  by_cases hnone : ∀ c ∈ text.head?, c ≠ '.' ∧ c ≠ '('
  · rw [runTail_of_ne hnone] at h
    exact ⟨[], text, none, rfl, .nothing, h⟩
  match text with
  | [] => exact absurd nofun hnone
  | c :: text =>
    by_cases hpoint : c = '.'
    · subst hpoint
      have h : run (.before (.chain head :: frames)) text = .ok result := h
      obtain ⟨space, derived, rest, selector, rfl, hspace, hderived, hrest⟩ := derives_of_run h
      exact ⟨'.' :: (space ++ derived), rest, some selector, by simp, .chain hspace hderived, hrest⟩
    · have hopen : c = '(' := by simpa [hpoint] using hnone
      subst hopen
      have h : run (.before (.group head [] :: frames)) text = .ok result := h
      obtain ⟨derived, rest, items, rfl, hderived, hrest⟩ := derives_of_runItems h
      exact ⟨'(' :: derived, rest, some (.list items), rfl, .group hderived, hrest⟩
termination_by (text.length, 0)

/-- What is read with success inside a group begins with derived items. -/
theorem derives_of_runItems {head : Head} {earlier : List Selector} {text : List Char}
    {frames : List Frame} {result : Selector}
    (h : run (.before (.group head earlier :: frames)) text = .ok result) :
    ∃ derived rest items, text = derived ++ rest ∧ DerivesItems derived items ∧
      run (complete (head.select (some (.list (earlier.reverse ++ items)))) frames) rest
        = .ok result := by
  obtain ⟨space, derived, after, selector, rfl, hspace, hderived, hafter⟩ := derives_of_run h
  obtain ⟨space', rest, hspace', hnext⟩ := of_run_afterItem hafter
  rcases hnext with ⟨rfl, hrest⟩ | ⟨rfl, hrest⟩
  · refine ⟨space ++ (derived ++ (space' ++ [')'])), rest, [selector], by simp,
      .last hspace hderived hspace', ?_⟩
    rwa [List.reverse_cons] at hrest
  · obtain ⟨more, rest, items, rfl, hmore, hrest⟩ := derives_of_runItems hrest
    refine ⟨space ++ (derived ++ (space' ++ ',' :: more)), rest, selector :: items, by simp,
      .more hspace hderived hspace' hmore, ?_⟩
    rwa [List.reverse_cons, List.append_assoc, List.singleton_append] at hrest
termination_by (text.length, 1)

end

end State

/-! ## The reader and the rules -/

/-- The reader completes the selector of a written text. -/
theorem run_of_written {text : List Char} {selector : Selector} (h : Written text selector) :
    State.run (.before []) text = .ok selector := by
  obtain ⟨space, derived, space', rfl, hspace, hderived, hspace'⟩ := h
  have hends : Ends space' := by simpa using ends_blank_append hspace' ends_nil
  rw [State.run_blank hspace, State.run_of_derives [] hends hderived]
  exact State.run_finished hspace'

/-- What the reader accepts is written as its result. -/
theorem written_of_run {text : List Char} {selector : Selector}
    (h : State.run (.before []) text = .ok selector) : Written text selector := by
  obtain ⟨space, derived, space', found, rfl, hspace, hderived, hrest⟩ := State.derives_of_run h
  obtain ⟨hspace', rfl⟩ := State.of_run_finished hrest
  exact ⟨space, derived, space', rfl, hspace, hderived, hspace'⟩

theorem written_iff_run (text : List Char) (selector : Selector) :
    Written text selector ↔ State.run (.before []) text = .ok selector :=
  ⟨run_of_written, written_of_run⟩

theorem read_eq_ok_iff (text : String) (selector : Selector) :
    read text = .ok selector ↔ State.run (.before []) text.toList = .ok selector := by
  rw [read]
  cases State.run (.before []) text.toList <;> simp [Except.mapError]

/-- The reader accepts the texts that are derived, each as the selector it is derived as, and a text
that it accepts is derived as one selector only. -/
theorem read_iff_derived (text : String) (selector : Selector) :
    (read text = .ok selector ↔ Written text.toList selector) ∧
      ((∃ found, read text = .ok found) ↔ ∃! found, Written text.toList found) := by
  have hread (found : Selector) : read text = .ok found ↔ Written text.toList found :=
    (read_eq_ok_iff text found).trans (written_iff_run text.toList found).symm
  refine ⟨hread selector, ?_, ?_⟩
  · rintro ⟨found, h⟩
    refine ⟨found, (hread found).mp h, fun other hother => ?_⟩
    have heq := (hread other).mpr hother
    rw [h] at heq
    exact (Except.ok.inj heq).symm
  · rintro ⟨found, h, -⟩
    exact ⟨found, (hread found).mpr h⟩

end LinkedDocs.Selector
