import LinkedDocs.Glob.Class
import LinkedDocs.Proofs.Text.Folding

/-!
# Character classes by their members

`Members` is the grammar of what stands between the brackets of a class: single characters and
ranges. A hyphen joins the characters on both its sides to a range, unless it is the first
character, the last one or comes right after a range. As long as no two hyphens are adjacent this is
how a class is read:

> `ofBody?_eq`: the class has the members that are written, and there is none if the ends of a
> range are the wrong way round.

What a class holds is a matter of its members alone: `CharClass.Admits` is the meaning of a class up
to case, without tables or variants, and `has_iff` says that the test decides it.
-/

namespace LinkedDocs.Glob

/-! ## What a class holds -/

/-- The member is the character, or a range with the character in it. -/
def ClassMember.Covers (c : Char) : ClassMember → Prop
  | .char d => c = d
  | .range first last => first ≤ c ∧ c ≤ last

/-- One of the members covers the character or one that is the same up to case. -/
def Listed (members : List ClassMember) (c : Char) : Prop :=
  ∃ d, Text.sameFolded d c = true ∧ ∃ m ∈ members, m.Covers d

/-- The character is listed and not taken away again or, in a negated class, the other way round. -/
def CharClass.Admits (k : CharClass) (c : Char) : Prop :=
  (Listed k.members c ∧ ∀ members ∈ k.without, ¬ Listed members c) ↔ k.negated = false

theorem ClassMember.has_iff (m : ClassMember) (c : Char) : m.has c.toNat = true ↔ m.Covers c := by
  cases m with
  | char d => simp [ClassMember.has, ClassMember.Covers, Char.toNat_inj]
  | range first last =>
    simp [ClassMember.has, ClassMember.Covers, Char.le_def, UInt32.le_iff_toNat_le]

theorem oneOf_iff (members : List ClassMember) (c : Char) :
    CharClass.oneOf members c = true ↔ Listed members c := by
  have hany : CharClass.oneOf members c = true ↔
      ∃ point ∈ Text.caseVariants c, members.any (ClassMember.has point) = true := by
    rw [CharClass.oneOf, List.any_eq_true]
  rw [hany, Text.exists_variant_iff]
  simp only [List.any_eq_true, ClassMember.has_iff, Listed]

/-- The test of a class decides its meaning. -/
theorem CharClass.has_iff (k : CharClass) (c : Char) : k.has c = true ↔ k.Admits c := by
  have hkept : (CharClass.oneOf k.members c && !k.without.any (CharClass.oneOf · c)) = true ↔
      Listed k.members c ∧ ∀ members ∈ k.without, ¬ Listed members c := by
    simp [← oneOf_iff]
  unfold CharClass.has CharClass.Admits
  rw [← hkept, bne_iff_ne, ← Bool.eq_not, Bool.eq_iff_iff, Bool.not_eq_true']

/-! ## How members are written -/

/-- No hyphen stands next to another one. -/
def HyphensApart (body : List Char) : Prop := ¬ ['-', '-'] <:+: body

/-- The characters are the members, one after the other. -/
inductive Members : List Char → List ClassMember → Prop where
  | nil : Members [] []
  | char {c rest members} : (c = '-' ∨ ∀ last more, rest ≠ '-' :: last :: more) →
    Members rest members → Members (c :: rest) (.char c :: members)
  | range {first last rest members} : first ≠ '-' → Members rest members →
    Members (first :: '-' :: last :: rest) (.range first last :: members)

/-- The ends of the member, if it is a range, are in order. -/
def ClassMember.inOrder : ClassMember → Bool
  | .char _ => true
  | .range first last => first ≤ last

/-- The class with this body: all ranges go up, and nothing is taken away. -/
def CharClass.Written (negated : Bool) (body : List Char) (k : CharClass) : Prop :=
  ∃ members, Members body members ∧ (∀ m ∈ members, m.inOrder = true) ∧
    k = ⟨negated, members, []⟩

/-- The body has a range with its ends the wrong way round. -/
def HasReversedRange (body : List Char) : Prop :=
  ∃ members, Members body members ∧ ∃ m ∈ members, m.inOrder = false

/-- Every body has members. -/
theorem exists_members : ∀ body : List Char, ∃ members, Members body members
  | [] => ⟨[], .nil⟩
  | [c] => ⟨[.char c], .char (.inr (by simp)) .nil⟩
  | [c, d] => by
    obtain ⟨members, hmembers⟩ := exists_members [d]
    exact ⟨.char c :: members, .char (.inr (by simp)) hmembers⟩
  | first :: hyphen :: last :: rest => by
    by_cases h : first ≠ '-' ∧ hyphen = '-'
    · obtain ⟨hfirst, rfl⟩ := h
      obtain ⟨members, hmembers⟩ := exists_members rest
      exact ⟨.range first last :: members, .range hfirst hmembers⟩
    · obtain ⟨members, hmembers⟩ := exists_members (hyphen :: last :: rest)
      refine ⟨.char first :: members, .char ?_ hmembers⟩
      by_cases hfirst : first = '-'
      · exact .inl hfirst
      · refine .inr fun last' more heq => h ⟨hfirst, ?_⟩
        cases heq
        rfl

/-- A class is written by its body, unless a range is reversed. -/
theorem exists_written (negated : Bool) {body : List Char} (h : ¬ HasReversedRange body) :
    ∃ k, CharClass.Written negated body k := by
  obtain ⟨members, hmembers⟩ := exists_members body
  refine ⟨_, members, hmembers, fun m hm => ?_, rfl⟩
  cases horder : m.inOrder with
  | true => rfl
  | false => exact absurd ⟨members, hmembers, m, hm, horder⟩ h

/-! ## How members are read -/

theorem HyphensApart.rest {c : Char} {body : List Char} (h : HyphensApart (c :: body)) :
    HyphensApart body :=
  fun hhyphens => h (hhyphens.trans (List.suffix_cons c body).isInfix)

theorem HyphensApart.head {body : List Char} (h : HyphensApart ('-' :: body)) :
    body.head? ≠ some '-' := by
  intro hhead
  cases body with
  | nil => cases hhead
  | cons c body =>
    cases hhead
    exact h ⟨[], body, rfl⟩

/-- A character that is not joined to another one is read as a member. -/
theorem operands?_char {c : Char} {rest : List Char} (hapart : c = '-' → rest.head? ≠ some '-')
    (hjoins : c = '-' ∨ ∀ last more, rest ≠ '-' :: last :: more) :
    CharClass.operands? (c :: rest)
      = (CharClass.operands? rest).map (CharClass.addMember (.char c)) := by
  rw [CharClass.operands?]
  · rintro rest' rfl rfl
    exact hapart rfl rfl
  · rintro last more rfl
    rcases hjoins with rfl | hjoins
    · exact hapart rfl rfl
    · exact hjoins last more rfl

/-- A range is read as one, and refused if its ends are the wrong way round. -/
theorem operands?_range {first last : Char} {rest : List Char} (hfirst : first ≠ '-')
    (hlast : last ≠ '-') :
    CharClass.operands? (first :: '-' :: last :: rest)
      = if first ≤ last then
          (CharClass.operands? rest).map (CharClass.addMember (.range first last))
        else none := by
  rw [CharClass.operands?, if_neg hlast]
  exact hfirst

/-- Members that are written are read, if all ranges among them go up. -/
theorem operands?_eq {body : List Char} {members : List ClassMember} (h : Members body members)
    (hapart : HyphensApart body) :
    CharClass.operands? body
      = if members.all ClassMember.inOrder then some (members, []) else none := by
  induction h with
  | nil => rfl
  | @char c rest members hjoins _ ih =>
    rw [operands?_char (fun hc => (hc ▸ hapart).head) hjoins, ih hapart.rest]
    show _ = if members.all ClassMember.inOrder then some (.char c :: members, []) else none
    split <;> rfl
  | @range first last rest members hfirst _ ih =>
    have hlast : last ≠ '-' := by
      rintro rfl
      exact hapart.rest.head rfl
    rw [operands?_range hfirst hlast, ih hapart.rest.rest.rest]
    by_cases hle : first ≤ last
    · simp only [List.all_cons, ClassMember.inOrder, hle, decide_true, Bool.true_and, if_true]
      split <;> rfl
    · simp only [List.all_cons, ClassMember.inOrder, hle, decide_false, Bool.false_and, if_false,
        Bool.false_eq_true]

/-- Hyphens at the start are members, one by one. -/
theorem Members.dropWhile {body : List Char} {members : List ClassMember}
    (h : Members body members) :
    ∃ rest, Members (body.dropWhile (· == '-')) rest ∧
      members = (body.takeWhile (· == '-')).map ClassMember.char ++ rest := by
  induction h with
  | nil => exact ⟨[], .nil, rfl⟩
  | @char c more members hjoins hmore ih =>
    by_cases hc : c = '-'
    · subst hc
      obtain ⟨rest, hrest, hmembers⟩ := ih
      refine ⟨rest, by simpa using hrest, ?_⟩
      simp [hmembers]
    · exact ⟨.char c :: members, by simpa [hc] using Members.char hjoins hmore, by simp [hc]⟩
  | @range first last more members hfirst hmore =>
    exact ⟨.range first last :: members, by simpa [hfirst] using Members.range hfirst hmore,
      by simp [hfirst]⟩

/-- **A class is read as it is written.** If no two hyphens are adjacent behind those at the start,
the class has the members that its body is written with, and there is none if a range among them is
reversed. -/
theorem ofBody?_eq_of_dropWhile {body : List Char} {members : List ClassMember}
    (h : Members body members) (hapart : HyphensApart (body.dropWhile (· == '-')))
    (negated : Bool) :
    CharClass.ofBody? negated body
      = if members.all ClassMember.inOrder then some ⟨negated, members, []⟩ else none := by
  obtain ⟨rest, hrest, rfl⟩ := h.dropWhile
  have hhyphens : ((body.takeWhile (· == '-')).map ClassMember.char).all ClassMember.inOrder
      = true := by
    simp [ClassMember.inOrder]
  unfold CharClass.ofBody?
  rw [operands?_eq hrest hapart, List.all_append, hhyphens, Bool.true_and]
  split <;> rfl

theorem ofBody?_eq {body : List Char} {members : List ClassMember} (h : Members body members)
    (hapart : HyphensApart body) (negated : Bool) :
    CharClass.ofBody? negated body
      = if members.all ClassMember.inOrder then some ⟨negated, members, []⟩ else none :=
  ofBody?_eq_of_dropWhile h
    (fun hhyphens => hapart (hhyphens.trans (List.dropWhile_suffix _).isInfix)) negated

/-- A class that is written is read. -/
theorem ofBody?_of_written {negated : Bool} {body : List Char} {k : CharClass}
    (h : CharClass.Written negated body k) (hapart : HyphensApart body) :
    CharClass.ofBody? negated body = some k := by
  obtain ⟨members, hmembers, horder, rfl⟩ := h
  rw [ofBody?_eq hmembers hapart, if_pos (List.all_eq_true.mpr horder)]

/-- A class with a reversed range is refused. -/
theorem ofBody?_of_hasReversedRange {body : List Char} (h : HasReversedRange body)
    (hapart : HyphensApart body) (negated : Bool) : CharClass.ofBody? negated body = none := by
  obtain ⟨members, hmembers, m, hm, hreversed⟩ := h
  rw [ofBody?_eq hmembers hapart, if_neg]
  intro hall
  rw [List.all_eq_true.mp hall m hm] at hreversed
  cases hreversed

end LinkedDocs.Glob
