import LinkedDocs.Proofs.Selector.Grammar

/-!
# Where reading a selector breaks off

A text that is no selector is refused at an offset, and what is reported is the text from there on.
The offset is the best one there is: what comes before it is the beginning of a selector, and with
the next character it is not.

> `completable`: from every state of the reader some text leads to a selector.
> `run_error`: so the reader breaks off as late as it can.

The first follows the stack of open references: a group is closed by a parenthesis, a chain is
completed together with what it leads to. The second needs nothing about the grammar any more, since
a step that is refused is refused whatever comes after it.
-/

namespace LinkedDocs.Selector

namespace State

/-! ## Every state can be completed -/

/-- Some text leads from here to a selector. -/
def Completable (state : State) : Prop := ∃ more selector, run state more = .ok selector

theorem Completable.of_step {state next : State} {c : Char} (h : state.step c = .ok next)
    (hnext : next.Completable) : state.Completable := by
  obtain ⟨more, selector, hrun⟩ := hnext
  refine ⟨c :: more, selector, ?_⟩
  rw [run, h]
  exact hrun

/-- Closing all open groups completes the whole selector. -/
theorem completable_complete (selector : Selector) (frames : List Frame) :
    (complete selector frames).Completable := by
  induction frames generalizing selector with
  | nil => exact ⟨[], selector, rfl⟩
  | cons frame frames ih =>
    cases frame with
    | chain head => exact ih _
    | group head items =>
      have hclose : (State.afterItem head (selector :: items) frames).step ')'
          = .ok (complete (head.select (some (.list (selector :: items).reverse))) frames) := rfl
      exact .of_step hclose (ih _)

/-- White space after a selector changes nothing. -/
theorem stepAfter_space (selector : Selector) (frames : List Frame) :
    stepAfter (complete selector frames) ' ' = .ok (complete selector frames) := by
  rcases complete_cases selector frames with ⟨whole, h⟩ | ⟨head, items, outer, h⟩ <;> rw [h] <;> rfl

theorem completable_afterTarget (target : String) (frames : List Frame) :
    (State.afterTarget target frames).Completable := by
  have hspace : (State.afterTarget target frames).step ' '
      = .ok (complete (Head.select ⟨true, target⟩ none) frames) := stepAfter_space _ frames
  exact .of_step hspace (completable_complete _ frames)

theorem completable_inField (name : List Char) (frames : List Frame) :
    (State.inField name frames).Completable := by
  have hspace : isIdentChar ' ' = false := by decide +kernel
  refine .of_step (c := ' ') ?_ (completable_complete (.field (nameOf name)) frames)
  rw [step, if_neg (by simp [hspace])]
  exact stepAfter_space _ frames

/-- A target that has begun can end, for a many reference with a bracket. -/
theorem completable_inTarget_cons (isMany : Bool) (c : Char) (name : List Char)
    (frames : List Frame) : (State.inTarget isMany (c :: name) frames).Completable := by
  cases isMany with
  | false =>
    have hspace : isIdentChar ' ' = false := by decide +kernel
    refine .of_step (c := ' ') ?_
      (completable_complete (Head.select ⟨false, nameOf (c :: name)⟩ none) frames)
    rw [step, if_neg (by simp [hspace])]
    exact stepAfter_space _ frames
  | true =>
    have hclose : isIdentChar ']' = false := by decide +kernel
    refine .of_step (c := ']') ?_ (completable_afterTarget (nameOf (c :: name)) frames)
    rw [step, if_neg (by simp [hclose])]
    rfl

/-- From every state some text leads to a selector. -/
theorem completable (state : State) : state.Completable := by
  cases state with
  | before frames => exact .of_step (c := '*') rfl (completable_complete .wildcard frames)
  | inField name frames => exact completable_inField name frames
  | inTarget isMany name frames =>
    cases name with
    | nil =>
      have hident : isIdentChar 'a' = true := by decide +kernel
      refine .of_step (c := 'a') ?_ (completable_inTarget_cons isMany 'a' [] frames)
      rw [step, if_pos hident]
    | cons c name => exact completable_inTarget_cons isMany c name frames
  | afterTarget target frames => exact completable_afterTarget target frames
  | afterItem head items frames =>
    have hclose : (State.afterItem head items frames).step ')'
        = .ok (complete (head.select (some (.list items.reverse))) frames) := rfl
    exact .of_step hclose (completable_complete _ frames)
  | finished selector => exact ⟨[], selector, rfl⟩

/-! ## The reader breaks off as late as it can -/

/-- What the reader has taken before it breaks off can go on to a selector; with the character that
it refuses it cannot. -/
theorem run_error {state : State} {text rest : List Char} {expected : Expected}
    (h : run state text = .error (expected, rest)) :
    ∃ before, text = before ++ rest ∧
      (∃ more selector, run state (before ++ more) = .ok selector) ∧
      ∀ c ∈ rest.head?, ∀ more selector, run state (before ++ c :: more) ≠ .ok selector := by
  induction text generalizing state with
  | nil =>
    rw [run] at h
    cases hfinish : state.finish with
    | ok selector => simp [hfinish, Except.mapError] at h
    | error other =>
      obtain ⟨-, rfl⟩ : other = expected ∧ [] = rest := by simpa [hfinish, Except.mapError] using h
      exact ⟨[], rfl, completable state, nofun⟩
  | cons c text ih =>
    rw [run] at h
    cases hstep : state.step c with
    | ok next =>
      rw [hstep] at h
      obtain ⟨before, rfl, ⟨more, selector, hmore⟩, hrefused⟩ := ih h
      refine ⟨c :: before, rfl, ⟨more, selector, ?_⟩, fun d hd more selector => ?_⟩
      · rw [List.cons_append, run, hstep]
        exact hmore
      · rw [List.cons_append, run, hstep]
        exact hrefused d hd more selector
    | error other =>
      rw [hstep] at h
      obtain ⟨-, rfl⟩ : other = expected ∧ c :: text = rest := by simpa using h
      refine ⟨[], rfl, completable state, fun d hd more selector => ?_⟩
      obtain rfl : c = d := by simpa using hd
      rw [List.nil_append, run, hstep]
      exact fun heq => nomatch heq

end State

/-! ## Errors of the reader -/

/-- The text can go on so that it is read as a selector. -/
def Viable (text : String) : Prop := ∃ more selector, read (text ++ more) = .ok selector

theorem byteLength_eq (text : List Char) : byteLength text = (String.ofList text).utf8ByteSize := by
  induction text with
  | nil => rfl
  | cons c text ih =>
    rw [byteLength, ih, String.ofList_cons, String.utf8ByteSize_append,
      String.utf8ByteSize_singleton]

/-- The offset of an error is the number of bytes before it. -/
theorem breakOff_append (before rest : List Char) (expected : Expected) :
    breakOff (before ++ rest) expected rest
      = .badSelector
          (if String.ofList rest = "" then String.ofList before ++ String.ofList rest
            else String.ofList rest)
          (.unexpected expected (String.ofList before).utf8ByteSize) := by
  rw [breakOff, byteLength_append, Nat.add_sub_cancel, byteLength_eq]
  cases rest <;> simp

theorem viable_iff_run (text : List Char) : Viable (String.ofList text) ↔
    ∃ more selector, State.run (.before []) (text ++ more) = .ok selector := by
  constructor
  · rintro ⟨more, selector, h⟩
    rw [read_eq_ok_iff, String.toList_append, String.toList_ofList] at h
    exact ⟨more.toList, selector, h⟩
  · rintro ⟨more, selector, h⟩
    refine ⟨String.ofList more, selector, ?_⟩
    rwa [read_eq_ok_iff, String.toList_append, String.toList_ofList, String.toList_ofList]

/-- **A text that is no selector is split where it stops being the beginning of one. The error tells
the bytes before that place, and what stands from there on; at the end of the text, it shows the
whole.** -/
theorem read_error {text : String} {error : QueryError} (h : read text = .error error) :
    ∃ before rest expected, text = before ++ rest ∧
      error = .badSelector (if rest = "" then text else rest)
        (.unexpected expected before.utf8ByteSize) ∧
      Viable before ∧
      ((∃ c after, rest = String.singleton c ++ after ∧
          ¬ Viable (before ++ String.singleton c)) ∨
        rest = "" ∧ ∀ selector, read text ≠ .ok selector) := by
  have hread := h
  rw [read] at h
  cases hrun : State.run (.before []) text.toList with
  | ok selector => simp [hrun, Except.mapError] at h
  | error broken =>
    obtain ⟨expected, rest⟩ := broken
    obtain ⟨before, htext, hviable, hrefused⟩ := State.run_error hrun
    have hwhole : text = String.ofList before ++ String.ofList rest := by
      rw [← String.ofList_append, ← htext, String.ofList_toList]
    have herror : breakOff text.toList expected rest = error := by
      simpa [hrun, Except.mapError] using h
    rw [htext, breakOff_append, ← hwhole] at herror
    refine ⟨String.ofList before, String.ofList rest, expected, hwhole, herror.symm,
      (viable_iff_run before).mpr hviable, ?_⟩
    cases rest with
    | nil =>
      refine .inr ⟨rfl, fun selector hok => ?_⟩
      rw [hread] at hok
      cases hok
    | cons c after =>
      refine .inl ⟨c, String.ofList after, String.ofList_cons, ?_⟩
      rw [String.singleton_eq_ofList, ← String.ofList_append, viable_iff_run]
      rintro ⟨more, selector, hmore⟩
      rw [List.append_assoc, List.singleton_append] at hmore
      exact hrefused c rfl more selector hmore

-- the letters and digits are a long table, and a semicolon is looked up in all of it
set_option maxRecDepth 2000 in
/-- A semicolon in a group is refused, after a letter of two bytes and white space. -/
theorem read_error_semicolon :
    read "@ö(a ;b)" = .error (.badSelector ";b)" (.unexpected .commaOrClosingParenthesis 6)) ∧
      Viable "@ö(a " ∧ ¬ Viable "@ö(a ;" := by
  have h : read "@ö(a ;b)"
      = .error (.badSelector ";b)" (.unexpected .commaOrClosingParenthesis 6)) := rfl
  obtain ⟨before, rest, expected, htext, herror, hviable, hafter⟩ := read_error h
  have hfragment : (if rest = "" then "@ö(a ;b)" else rest) = ";b)" :=
    (QueryError.badSelector.inj herror).1.symm
  have hrest : rest = ";b)" := by
    split at hfragment
    · exact absurd hfragment (by decide)
    · exact hfragment
  subst hrest
  have hbefore : before = "@ö(a " := by
    have happend : "@ö(a " ++ ";b)" = before ++ ";b)" := htext
    exact ((String.append_left_inj _).mp happend).symm
  subst hbefore
  rcases hafter with ⟨c, after, hsplit, hrefused⟩ | ⟨hend, -⟩
  · have hlist : [';', 'b', ')'] = c :: after.toList := by
      simpa using congrArg String.toList hsplit
    obtain ⟨rfl, -⟩ := List.cons.inj hlist
    exact ⟨h, hviable, hrefused⟩
  · exact absurd hend (by decide)

end LinkedDocs.Selector
