import LinkedDocs.Text.Folding

/-!
# The classes of simple case folding

The table lists runs of code points that move. Three facts about it are decided, run by run: the
runs are sorted and do not overlap, what moves and where it moves to are characters, and nothing
that a run moves to is moved again. So folding twice is folding once (`foldPoint_foldPoint`), and
the variants of a character are exactly the characters that fold as it does:

> `mem_caseVariants_iff`: a code point is a variant of a character if both fold to the same.

`exists_variant_iff` says this about characters, with `sameFolded`.
-/

namespace LinkedDocs.Text

/-- A run of the table: first and last code point, step and distance. -/
abbrev FoldRun := Nat × Nat × Nat × Int

namespace FoldRun

/-- Whether the run moves a code point. -/
def moves (run : FoldRun) (point : Nat) : Bool :=
  run.1 ≤ point && point ≤ run.2.1 && (point - run.1) % run.2.2.1 == 0

/-- Where the run moves a code point to. -/
def image (run : FoldRun) (point : Nat) : Nat := (point + run.2.2.2).toNat

theorem moves_iff (run : FoldRun) (point : Nat) :
    run.moves point = true ↔
      run.1 ≤ point ∧ point ≤ run.2.1 ∧ (point - run.1) % run.2.2.1 = 0 := by
  simp [moves, and_assoc]

/-- Whether all from one code point to another one are characters. -/
def areCharacters (first last : Nat) : Bool :=
  Nat.blt last 0xD800 || (Nat.blt 0xDFFF first && Nat.blt last 0x110000)

/-- Whether a run goes up and lies, as what it moves to, among the characters, zero apart. -/
def isSound (run : FoldRun) : Bool :=
  Nat.blt 0 run.1 && Nat.ble run.1 run.2.1 && areCharacters run.1 run.2.1 &&
    Nat.blt 0 (run.image run.1) && areCharacters (run.image run.1) (run.image run.2.1)

end FoldRun

/-- Whether each run ends before the next one starts. -/
def areSorted : List FoldRun → Bool
  | (_, last, _, _) :: (first, run) :: runs =>
    Nat.blt last first && areSorted ((first, run) :: runs)
  | _ => true

/-- Whether none of the runs, which are sorted, moves a code point between two given ones. A step of
two is told from another one by parity. -/
def areUnmoved (first last step : Nat) : List FoldRun → Bool
  | [] => true
  | (first', last', step', _) :: runs =>
    bif Nat.blt last' first then areUnmoved first last step runs
    else bif Nat.blt last first' then true
    else Nat.beq step' 2 && Nat.beq ((first + first') % 2) 1 &&
      (Nat.beq step 2 || Nat.beq first last) && areUnmoved first last step runs

/-! ## What is decided about the table -/

theorem areSorted_foldRuns : areSorted foldRuns = true := by decide +kernel

theorem isSound_of_mem : ∀ run ∈ foldRuns, FoldRun.isSound run = true := by decide +kernel

theorem areUnmoved_images :
    (foldRuns.all fun run =>
      areUnmoved (FoldRun.image run run.1) (FoldRun.image run run.2.1) run.2.2.1 foldRuns)
      = true := by
  decide +kernel

/-! ## Looking a code point up -/

theorem foldPoint_eq (point : Nat) :
    foldPoint point
      = (foldRuns.find? fun run => FoldRun.moves run point).elim point (FoldRun.image · point) := by
  have hmoves : (fun run : FoldRun => run.moves point)
      = fun (first, last, step, _) =>
        first ≤ point && point ≤ last && (point - first) % step == 0 := by
    funext run
    rfl
  rw [hmoves]
  unfold foldPoint
  split
  · next h => rw [h]; rfl
  · next h => rw [h]; rfl

/-- What `isSound` says of a run. -/
structure FoldRun.Sound (run : FoldRun) : Prop where
  pos : 0 < run.1
  le : run.1 ≤ run.2.1
  image_pos : 0 < (run.1 : Int) + run.2.2.2
  characters : areCharacters run.1 run.2.1 = true
  image_characters : areCharacters (run.image run.1) (run.image run.2.1) = true

theorem sound_of_mem (run : FoldRun) (hrun : run ∈ foldRuns) : run.Sound := by
  have h := isSound_of_mem run hrun
  simp only [FoldRun.isSound, Bool.and_eq_true, Nat.blt_eq, Nat.ble_eq] at h
  obtain ⟨⟨⟨⟨hpos, hle⟩, hcharacters⟩, himage⟩, hcharacters'⟩ := h
  unfold FoldRun.image at himage
  exact ⟨hpos, hle, by omega, hcharacters, hcharacters'⟩

/-- Sorted runs that go up do so in pairs, too. -/
theorem pairwise_of_areSorted {runs : List FoldRun} (h : areSorted runs = true)
    (hsound : ∀ run ∈ runs, run.Sound) :
    runs.Pairwise fun run other => run.2.1 < other.1 := by
  induction runs with
  | nil => exact .nil
  | cons run runs ih =>
    cases runs with
    | nil => exact List.pairwise_singleton ..
    | cons next runs =>
      have hsplit : run.2.1 < next.1 ∧ areSorted (next :: runs) = true := by
        simpa [areSorted] using h
      obtain ⟨hlt, hrest⟩ := hsplit
      have hpairs := ih hrest fun run hmem => hsound run (List.mem_cons_of_mem _ hmem)
      refine .cons ?_ hpairs
      intro other hother
      rcases List.mem_cons.mp hother with rfl | hmem
      · exact hlt
      · have hnext := List.rel_of_pairwise_cons hpairs hmem
        have hup := (hsound next (List.mem_cons_of_mem _ (List.mem_cons_self ..))).le
        omega

theorem pairwise_foldRuns :
    foldRuns.Pairwise fun (run other : FoldRun) => run.2.1 < other.1 :=
  pairwise_of_areSorted areSorted_foldRuns sound_of_mem

/-- A code point is moved by one run only. -/
theorem eq_of_moves {run other : FoldRun} {point : Nat} (hrun : run ∈ foldRuns)
    (hother : other ∈ foldRuns) (h : run.moves point = true) (h' : other.moves point = true) :
    run = other := by
  have hpairs := pairwise_foldRuns
  obtain ⟨hlow, hhigh, -⟩ := (FoldRun.moves_iff run point).mp h
  obtain ⟨hlow', hhigh', -⟩ := (FoldRun.moves_iff other point).mp h'
  obtain ⟨i, hi, rfl⟩ := List.mem_iff_getElem.mp hrun
  obtain ⟨j, hj, rfl⟩ := List.mem_iff_getElem.mp hother
  rw [List.pairwise_iff_getElem] at hpairs
  rcases Nat.lt_trichotomy i j with hlt | rfl | hgt
  · have := hpairs i j hi hj hlt
    omega
  · rfl
  · have := hpairs j i hj hi hgt
    omega

theorem foldPoint_of_moves {run : FoldRun} {point : Nat} (hrun : run ∈ foldRuns)
    (h : run.moves point = true) : foldPoint point = run.image point := by
  rw [foldPoint_eq]
  cases hfound : foldRuns.find? fun run => FoldRun.moves run point with
  | none =>
    rw [List.find?_eq_none] at hfound
    exact absurd h (hfound run hrun)
  | some other =>
    have hmoves : FoldRun.moves other point = true := by
      simpa using List.find?_some hfound
    rw [eq_of_moves hrun (List.mem_of_find?_eq_some hfound) h hmoves]
    rfl

theorem foldPoint_of_not_moves {point : Nat}
    (h : ∀ run ∈ foldRuns, FoldRun.moves run point = false) : foldPoint point = point := by
  rw [foldPoint_eq, List.find?_eq_none.mpr fun run hrun => by simp [h run hrun]]
  rfl

/-- A code point is moved by some run, or stays. -/
theorem moves_or_foldPoint_eq (point : Nat) :
    (∃ run ∈ foldRuns, FoldRun.moves run point = true) ∨ foldPoint point = point := by
  by_cases h : ∃ run ∈ foldRuns, FoldRun.moves run point = true
  · exact .inl h
  · refine .inr (foldPoint_of_not_moves fun run hrun => ?_)
    simpa using fun hmoves => h ⟨run, hrun, hmoves⟩

/-! ## Images -/

/-- What a run moves goes its distance. -/
theorem FoldRun.Sound.image_eq {run : FoldRun} (h : run.Sound) {point : Nat}
    (hpoint : run.1 ≤ point) : (run.image point : Int) = point + run.2.2.2 := by
  have := h.image_pos
  unfold FoldRun.image
  omega

theorem isValidChar_of_areCharacters {first last point : Nat}
    (h : FoldRun.areCharacters first last = true) (hlow : first ≤ point) (hhigh : point ≤ last) :
    point.isValidChar := by
  simp only [FoldRun.areCharacters, Bool.or_eq_true, Bool.and_eq_true, Nat.blt_eq] at h
  unfold Nat.isValidChar
  omega

/-- What is moved is a character, and so is what it is moved to. -/
theorem isValidChar_of_moves {run : FoldRun} {point : Nat} (hrun : run ∈ foldRuns)
    (h : run.moves point = true) : point.isValidChar ∧ (run.image point).isValidChar := by
  have hsound := sound_of_mem run hrun
  obtain ⟨hlow, hhigh, -⟩ := (FoldRun.moves_iff run point).mp h
  have himage := hsound.image_eq hlow
  have hfirst := hsound.image_eq (Nat.le_refl run.1)
  have hlast := hsound.image_eq hsound.le
  constructor
  · exact isValidChar_of_areCharacters hsound.characters hlow hhigh
  · exact isValidChar_of_areCharacters hsound.image_characters (by omega) (by omega)

/-- Code points in steps from the first to the last one are not moved by the runs that leave them
alone. -/
theorem moves_eq_false_of_areUnmoved {first last step : Nat} {runs : List FoldRun}
    (h : areUnmoved first last step runs = true)
    (hpairs : runs.Pairwise fun run other => run.2.1 < other.1)
    (hsound : ∀ run ∈ runs, run.Sound) {point : Nat} (hlow : first ≤ point)
    (hhigh : point ≤ last) (hstep : (point - first) % step = 0) :
    ∀ run ∈ runs, run.moves point = false := by
  induction runs with
  | nil => simp
  | cons run runs ih =>
    obtain ⟨first', last', step', distance⟩ := run
    obtain ⟨hbefore, hrest⟩ := List.pairwise_cons.mp hpairs
    have hup : first' ≤ last' := (hsound _ (List.mem_cons_self ..)).le
    have hsound' : ∀ run ∈ runs, run.Sound :=
      fun run hmem => hsound run (List.mem_cons_of_mem _ hmem)
    -- no run at all moves a point that is below the first one of them
    have hbelow : last < first' →
        ∀ run ∈ (first', last', step', distance) :: runs, FoldRun.moves run point = false := by
      intro hlt run hmem
      rw [← Bool.not_eq_true, FoldRun.moves_iff]
      rintro ⟨hrun, -, -⟩
      rcases List.mem_cons.mp hmem with rfl | hmem
      · have : first' ≤ point := hrun
        omega
      · have := hbefore run hmem
        dsimp only at this
        omega
    rw [areUnmoved] at h
    cases habove : Nat.blt last' first with
    | true =>
      rw [Nat.blt_eq] at habove
      simp only [Nat.blt_eq.mpr habove, cond_true] at h
      intro run hmem
      rcases List.mem_cons.mp hmem with rfl | hmem
      · rw [← Bool.not_eq_true, FoldRun.moves_iff]
        rintro ⟨-, hrun, -⟩
        have : point ≤ last' := hrun
        omega
      · exact ih h hrest hsound' run hmem
    | false =>
      rw [habove, cond_false] at h
      cases hunder : Nat.blt last first' with
      | true => exact hbelow (Nat.blt_eq.mp hunder)
      | false =>
        simp only [hunder, cond_false, Bool.and_eq_true, Bool.or_eq_true, Nat.beq_eq] at h
        obtain ⟨⟨⟨htwo, hodd⟩, hsteps⟩, hleft⟩ := h
        intro run hmem
        rcases List.mem_cons.mp hmem with rfl | hmem
        · rw [← Bool.not_eq_true, FoldRun.moves_iff]
          rintro ⟨hrun, -, heven⟩
          have hrun' : first' ≤ point := hrun
          have heven' : (point - first') % 2 = 0 := htwo ▸ heven
          rcases hsteps with rfl | rfl
          · omega
          · omega
        · exact ih hleft hrest hsound' run hmem

/-- What a code point is moved to stays. -/
theorem foldPoint_image {run : FoldRun} {point : Nat} (hrun : run ∈ foldRuns)
    (h : run.moves point = true) : foldPoint (run.image point) = run.image point := by
  have hsound := sound_of_mem run hrun
  obtain ⟨hlow, hhigh, hstep⟩ := (FoldRun.moves_iff run point).mp h
  have himage := hsound.image_eq hlow
  have hfirst := hsound.image_eq (Nat.le_refl run.1)
  have hlast := hsound.image_eq hsound.le
  have hunmoved := List.all_eq_true.mp areUnmoved_images run hrun
  have hdistance : run.image point - run.image run.1 = point - run.1 := by omega
  refine foldPoint_of_not_moves (moves_eq_false_of_areUnmoved hunmoved pairwise_foldRuns
    sound_of_mem (by omega) (by omega) ?_)
  rw [hdistance]
  exact hstep

/-- Folding twice is folding once. -/
theorem foldPoint_foldPoint (point : Nat) : foldPoint (foldPoint point) = foldPoint point := by
  rcases moves_or_foldPoint_eq point with ⟨run, hrun, hmoves⟩ | hstays
  · rw [foldPoint_of_moves hrun hmoves, foldPoint_image hrun hmoves]
  · rw [hstays, hstays]

theorem isValidChar_foldPoint (c : Char) : (foldPoint c.toNat).isValidChar := by
  rcases moves_or_foldPoint_eq c.toNat with ⟨run, hrun, hmoves⟩ | hstays
  · rw [foldPoint_of_moves hrun hmoves]
    exact (isValidChar_of_moves hrun hmoves).2
  · rw [hstays]
    exact c.valid

/-! ## Variants -/

theorem caseVariants_eq (c : Char) :
    caseVariants c = foldPoint c.toNat :: foldRuns.filterMap fun run =>
      if FoldRun.moves run (foldPoint c.toNat - run.2.2.2).toNat then
        some (foldPoint c.toNat - run.2.2.2).toNat
      else none := by
  rfl

/-- The variants of a character are the code points that fold as it does. -/
theorem mem_caseVariants_iff (c : Char) (point : Nat) :
    point ∈ caseVariants c ↔ foldPoint point = foldPoint c.toNat := by
  rw [caseVariants_eq, List.mem_cons, List.mem_filterMap]
  constructor
  · rintro (rfl | ⟨run, hrun, hpoint⟩)
    · exact foldPoint_foldPoint c.toNat
    · by_cases hmoves : FoldRun.moves run (foldPoint c.toNat - run.2.2.2).toNat = true
      · rw [if_pos hmoves, Option.some.injEq] at hpoint
        rw [hpoint] at hmoves
        have hsound := sound_of_mem run hrun
        have hlow := ((FoldRun.moves_iff run point).mp hmoves).1
        have himage := hsound.image_eq hlow
        have hpos := hsound.pos
        rw [foldPoint_of_moves hrun hmoves]
        omega
      · rw [if_neg hmoves] at hpoint
        cases hpoint
  · intro h
    rcases moves_or_foldPoint_eq point with ⟨run, hrun, hmoves⟩ | hstays
    · right
      have himage := (sound_of_mem run hrun).image_eq ((FoldRun.moves_iff run point).mp hmoves).1
      rw [← foldPoint_of_moves hrun hmoves, h] at himage
      have hback : (foldPoint c.toNat - run.2.2.2).toNat = point := by omega
      exact ⟨run, hrun, by rw [hback, if_pos hmoves]⟩
    · exact .inl (hstays.symm.trans h)

theorem toNat_ofNat {point : Nat} (h : point.isValidChar) : (Char.ofNat point).toNat = point := by
  unfold Char.ofNat
  rw [dif_pos h]
  rfl

theorem toNat_fold (c : Char) : (fold c).toNat = foldPoint c.toNat :=
  toNat_ofNat (isValidChar_foldPoint c)

theorem sameFolded_iff (a b : Char) :
    sameFolded a b = true ↔ foldPoint a.toNat = foldPoint b.toNat := by
  rw [sameFolded, beq_iff_eq, ← Char.toNat_inj, toNat_fold, toNat_fold]

/-- The variants of a character are the characters that are the same up to case. -/
theorem exists_variant_iff (c : Char) (p : Nat → Prop) :
    (∃ point ∈ caseVariants c, p point) ↔ ∃ d : Char, sameFolded d c = true ∧ p d.toNat := by
  constructor
  · rintro ⟨point, hpoint, hp⟩
    have hfold := (mem_caseVariants_iff c point).mp hpoint
    have hvalid : point.isValidChar := by
      rcases moves_or_foldPoint_eq point with ⟨run, hrun, hmoves⟩ | hstays
      · exact (isValidChar_of_moves hrun hmoves).1
      · rw [← hstays, hfold]
        exact isValidChar_foldPoint c
    refine ⟨Char.ofNat point, ?_, ?_⟩
    · rw [sameFolded_iff, toNat_ofNat hvalid]
      exact hfold
    · rw [toNat_ofNat hvalid]
      exact hp
  · rintro ⟨d, hsame, hp⟩
    exact ⟨d.toNat, (mem_caseVariants_iff c d.toNat).mpr ((sameFolded_iff d c).mp hsame), hp⟩

end LinkedDocs.Text
