import LinkedDocs.Proofs.Change.Names
import LinkedDocs.Proofs.Json.Equality

/-!
# Versions in between

A document may go through several versions. Whether a name is reported between two of them depends
on both: plain fields that disappear are not reported, links are, and a field is a link by the
values that it has. Still nothing gets lost on the way:

> `Has.split`: what the comparison of the first and the last of three versions names, one of the two
> comparisons with the version in between names too.

This holds because a name that a comparison leaves out either has the same value before and after,
and then it is a link before if it is one after, or is gone and was no link. For a longer sequence
it follows by induction (`names_between_versions`). Comparing in both directions tells whether two
versions are equal, bookkeeping apart (`isEmpty_both_iff`).
-/

namespace LinkedDocs

namespace Value

/-! ## Equal values -/

theorem Same.refers {v w : Value} (h : Same v w) (refers : v.Refers) : w.Refers := by
  have hscalar : ∀ u : Value, u.normal.scalarText?.isSome = u.scalarText?.isSome := by
    intro u
    cases u <;> rfl
  have hnormal : v.normal = w.normal := (same_iff v w).mp h
  rcases refers with hv | ⟨items, hv, hitems⟩
  · left
    rw [← hscalar, ← hnormal, hscalar]
    exact hv
  · -- the other value is an array with as many items, equal to these one by one
    right
    subst hv
    cases w with
    | array others =>
      refine ⟨others, rfl, ?_⟩
      intro other hother
      have hmap : items.map normal = others.map normal := by
        rw [← normalItems_eq_map, ← normalItems_eq_map]
        exact Value.array.inj hnormal
      have hmem : other.normal ∈ items.map normal := by
        rw [hmap]
        exact List.mem_map_of_mem hother
      obtain ⟨item, hitem, heq⟩ := List.mem_map.mp hmem
      rw [← hscalar, ← heq, hscalar]
      exact hitems item hitem
    | null | bool | number | string | object => cases hnormal

/-- Two objects are equal if and only if they have the same fields with equal values. -/
theorem same_ofFields_iff (f g : Fields) : Same (.ofFields f) (.ofFields g) ↔ SameFields f g := by
  constructor
  · intro h name
    have hnormal : normalMembers f.entries = normalMembers g.entries :=
      Value.object.inj ((same_iff _ _).mp h)
    have hfind : (f.get? name).map normal = (g.get? name).map normal := by
      unfold Dict.get?
      rw [← find_normalMembers f.nodup, ← find_normalMembers g.nodup, hnormal]
    cases hf : f.get? name with
    | none =>
      cases hg : g.get? name with
      | none => exact .none
      | some w => simp [hf, hg] at hfind
    | some v =>
      cases hg : g.get? name with
      | none => simp [hf, hg] at hfind
      | some w =>
        rw [hf, hg] at hfind
        exact .some ((same_iff v w).mpr (Option.some.inj hfind))
  · exact SameFields.same

theorem SameFields.symm {f g : Fields} (h : SameFields f g) : SameFields g f := by
  intro name
  have hname := h name
  generalize f.get? name = before at hname ⊢
  generalize g.get? name = after at hname ⊢
  cases hname with
  | none => exact .none
  | some hsame =>
    refine .some ?_
    rw [Same, same_comm]
    exact hsame

end Value

namespace Change

variable {old new : Fields} {collections : List String} {name : String}

/-! ## Three versions -/

/-- A field of the new version is named unless it was there with an equal value. -/
theorem has_of_get? {value : Value} (shown : isInternal name = false)
    (now : new.get? name = some value)
    (other : ∀ before, old.get? name = some before → ¬ Value.Same before value) :
    (between old new collections).Has name := by
  refine has_between_iff.mpr (.inl (mem_changedNames_iff.mpr ⟨shown, value, now, ?_⟩))
  refine (differs_iff _ _).mpr ?_
  intro before hbefore
  exact Bool.not_eq_true _ ▸ other before hbefore

/-- A link that is gone is named. -/
theorem has_of_gone {before : Value} (shown : isInternal name = false)
    (was : old.get? name = some before) (gone : new.get? name = none)
    (known : name ∈ collections) (refers : before.Refers) :
    (between old new collections).Has name := by
  refine has_between_iff.mpr (.inr ⟨mem_removedNames_iff.mpr ⟨shown, gone, before, was⟩, ?_⟩)
  rw [was, gone]
  exact isLink_of_gone.mpr ⟨known, refers⟩

/-- What is named is no bookkeeping, and it is either in the new version and has no equal value in
the old one, or a link of the old version that is gone. -/
theorem Has.cases (h : (between old new collections).Has name) :
    isInternal name = false ∧
      ((∃ value, new.get? name = some value ∧
          ∀ before, old.get? name = some before → ¬ Value.Same before value) ∨
        ∃ before, old.get? name = some before ∧ new.get? name = none ∧ name ∈ collections ∧
          before.Refers) := by
  rcases has_between_iff.mp h with hchanged | ⟨hremoved, hlink⟩
  · obtain ⟨hshown, value, hvalue, hdiffers⟩ := mem_changedNames_iff.mp hchanged
    refine ⟨hshown, .inl ⟨value, hvalue, ?_⟩⟩
    intro before hbefore hsame
    rw [Value.Same, (differs_iff _ _).mp hdiffers before hbefore] at hsame
    cases hsame
  · obtain ⟨hshown, hgone, before, hbefore⟩ := mem_removedNames_iff.mp hremoved
    rw [hbefore, hgone, isLink_of_gone] at hlink
    exact ⟨hshown, .inr ⟨before, hbefore, hgone, hlink⟩⟩

/-- What is named between the first and the last of three versions is named before or after the one
in the middle. -/
theorem Has.split (h : (between old new collections).Has name) (middle : Fields) :
    (between old middle collections).Has name ∨ (between middle new collections).Has name := by
  obtain ⟨hshown, ⟨value, hnew, hother⟩ | ⟨before, hold, hgone, hknown, hrefers⟩⟩ := h.cases
  · by_cases hthere : ∃ kept, middle.get? name = some kept ∧ Value.Same kept value
    · -- the new value was there already, so it came in before
      obtain ⟨kept, hmiddle, hsame⟩ := hthere
      left
      refine has_of_get? hshown hmiddle ?_
      intro before hbefore hequal
      exact hother before hbefore (Value.same_trans hequal hsame)
    · right
      refine has_of_get? hshown hnew ?_
      intro kept hmiddle hsame
      exact hthere ⟨kept, hmiddle, hsame⟩
  · cases hmiddle : middle.get? name with
    | none =>
      left
      exact has_of_gone hshown hold hmiddle hknown hrefers
    | some value =>
      by_cases hsame : Value.Same before value
      · -- it was the same link until then
        right
        exact has_of_gone hshown hmiddle hgone hknown (hsame.refers hrefers)
      · left
        refine has_of_get? hshown hmiddle ?_
        intro other hother
        rw [hold] at hother
        cases hother
        exact hsame

theorem not_has_self (document : Fields) : ¬ (between document document collections).Has name := by
  intro h
  obtain ⟨-, ⟨value, hvalue, hother⟩ | ⟨before, hthere, hgone, -⟩⟩ := h.cases
  · exact hother value hvalue (Value.same_refl value)
  · rw [hthere] at hgone
    cases hgone

/-! ## Both directions -/

/-- Nothing is named between versions that show equal values. -/
theorem not_has_of_sameFields (h : Value.SameFields (Entity.visible old) (Entity.visible new)) :
    ¬ (between old new collections).Has name := by
  intro hhas
  obtain ⟨hshown, hcases⟩ := hhas.cases
  have hname := h name
  rw [Entity.get?_visible, Entity.get?_visible, hshown] at hname
  rcases hcases with ⟨value, hnew, hother⟩ | ⟨before, hold, hgone, -⟩
  · simp only [Bool.false_eq_true, if_false, hnew] at hname
    generalize hold : old.get? name = found at hname
    cases hname with
    | some hsame => exact hother _ hold hsame
  · simp only [Bool.false_eq_true, if_false, hold, hgone] at hname
    cases hname

/-- The comparisons in both directions are empty if and only if the versions are equal, bookkeeping
apart. -/
theorem isEmpty_both_iff (a b : Fields) (collections : List String) :
    (between a b collections).isEmpty = true ∧ (between b a collections).isEmpty = true ↔
      Value.Same (.ofFields (Entity.visible a)) (.ofFields (Entity.visible b)) := by
  rw [Value.same_ofFields_iff, isEmpty_iff, isEmpty_iff]
  constructor
  · intro h name
    obtain ⟨hforth, hback⟩ := h
    rw [Entity.get?_visible, Entity.get?_visible]
    cases hshown : isInternal name with
    | true => exact .none
    | false =>
      show Option.Rel Value.Same (a.get? name) (b.get? name)
      -- what one version has the other has with an equal value, or it would be named
      cases ha : a.get? name with
      | none =>
        cases hb : b.get? name with
        | none => exact .none
        | some w =>
          refine absurd (has_of_get? hshown hb ?_) (hforth name)
          intro before hbefore
          rw [ha] at hbefore
          cases hbefore
      | some v =>
        cases hb : b.get? name with
        | none =>
          refine absurd (has_of_get? hshown ha ?_) (hback name)
          intro before hbefore
          rw [hb] at hbefore
          cases hbefore
        | some w =>
          by_cases hsame : Value.Same v w
          · exact .some hsame
          · refine absurd (has_of_get? hshown hb ?_) (hforth name)
            intro before hbefore
            rw [ha] at hbefore
            cases hbefore
            exact hsame
  · intro h
    exact ⟨fun name => not_has_of_sameFields h, fun name => not_has_of_sameFields h.symm⟩

/-! ## Sequences of versions -/

/-- **No change hides behind versions in between.** What is named between the first and the last of
several versions, as a field or as a link, is named between two that follow each other. And two
versions are equal, bookkeeping apart, if nothing is named in either direction. -/
theorem names_between_versions (collections : List String) :
    (∀ (versions : Nat → Fields) (n : Nat) (name : String),
      (between (versions 0) (versions n) collections).Has name →
        ∃ i < n, (between (versions i) (versions (i + 1)) collections).Has name) ∧
      ∀ a b : Fields,
        (between a b collections).isEmpty = true ∧ (between b a collections).isEmpty = true ↔
          Value.Same (.ofFields (Entity.visible a)) (.ofFields (Entity.visible b)) := by
  refine ⟨?_, fun a b => isEmpty_both_iff a b collections⟩
  intro versions n
  induction n with
  | zero =>
    intro name h
    exact absurd h (not_has_self _)
  | succ n ih =>
    intro name h
    rcases h.split (versions n) with hbefore | hlast
    · obtain ⟨i, hi, hstep⟩ := ih name hbefore
      exact ⟨i, Nat.lt_succ_of_lt hi, hstep⟩
    · exact ⟨n, Nat.lt_succ_self n, hlast⟩

/-- A machine whose disk first becomes something that is no link and then disappears. -/
def diskTakenOff : Nat → Fields
  | 0 => Dict.ofList [("id", .string "1"), ("disk", .string "a")]
  | 1 => Dict.ofList [("id", .string "1"), ("disk", .object [("size", .number (.integer 2))])]
  | _ => Dict.ofList [("id", .string "1")]

/-- Taking off what is no link is not reported, but the disk was reported before. -/
theorem names_between_versions_disk_taken_off :
    (between (diskTakenOff 0) (diskTakenOff 2) ["disk"]).Has "disk" ∧
      (between (diskTakenOff 1) (diskTakenOff 2) ["disk"]).isEmpty = true ∧
      (between (diskTakenOff 0) (diskTakenOff 1) ["disk"]).Has "disk" := by
  have hends : (between (diskTakenOff 0) (diskTakenOff 2) ["disk"]).Has "disk" := by
    unfold Has
    decide +kernel
  have hlast : (between (diskTakenOff 1) (diskTakenOff 2) ["disk"]).isEmpty = true := by
    decide +kernel
  obtain ⟨i, hi, hstep⟩ := (names_between_versions ["disk"]).1 diskTakenOff 2 "disk" hends
  refine ⟨hends, hlast, ?_⟩
  -- it was one of two steps, and not the last one
  obtain rfl | rfl : i = 0 ∨ i = 1 := by omega
  · exact hstep
  · exact absurd hstep (isEmpty_iff.mp hlast "disk")

end Change

end LinkedDocs
