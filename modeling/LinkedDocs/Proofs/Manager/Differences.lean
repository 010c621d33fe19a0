import LinkedDocs.Proofs.Change.Names
import LinkedDocs.Proofs.Manager.Endings

/-!
# What a change of a document names

When a document gives way to another, some of its fields are `Due` to be announced: those that the
new version shows with another value, and the links that it does not show any more. This is said of
the visible fields alone and knows nothing of how changes are worked out.

> `due_iff`: the comparison of two versions names exactly what is due.
> `has_ofPatch_of_due`, `has_ofPatch_of_unset`: for a patch, which is compared as it was sent, what
> is due and what the patch takes out is named.

In a patch the names may be more: links that it does not mention look as if they were removed.
-/

namespace LinkedDocs

/-- A field has to be announced when a document gives way to a new version. -/
inductive Due (m : Memory) (old new : Fields) (field : String) : Prop where
  /-- The new version has it, and the old one does not or holds another value. -/
  | changed (value : Value) (now : (Entity.visible new).get? field = some value)
    (other : ∀ before, (Entity.visible old).get? field = some before → before.same value = false)
  /-- It was a link to a collection with documents, and the new version does not have it. -/
  | unlinked (before : Value) (was : (Entity.visible old).get? field = some before)
    (known : m.documents field ≠ []) (refers : before.Refers)
    (gone : (Entity.visible new).get? field = none)

theorem Entity.get?_visible_eq_some {fields : Fields} {name : String} {value : Value} :
    (visible fields).get? name = some value ↔
      isInternal name = false ∧ fields.get? name = some value := by
  rw [get?_visible]
  split <;> simp_all

/-- Between versions that show the same as these, exactly what is due is named. -/
theorem due_iff {m : Memory} (tidy : m.Tidy) {old new next : Fields}
    (shown : Entity.visible new = Entity.visible next) {field : String} :
    Due m old new field ↔
      (Change.between (Entity.visible old) next m.listing).Has field := by
  rw [Change.has_between_iff, Change.mem_changedNames_iff, Change.mem_removedNames_iff]
  have known_iff : field ∈ m.listing ↔ m.documents field ≠ [] := by
    rw [Memory.listing, mem_sortedNames, tidy.mem_keys_iff]
  constructor
  · intro due
    cases due with
    | changed value now other =>
      rw [shown, Entity.get?_visible_eq_some] at now
      exact .inl ⟨now.1, value, now.2, (Change.differs_iff _ _).mpr other⟩
    | unlinked before was known refers gone =>
      have hshown := (Entity.get?_visible_eq_some.mp was).1
      rw [shown, Entity.get?_visible, hshown] at gone
      have gone : next.get? field = none := gone
      rw [was, gone, Change.isLink_of_gone, known_iff]
      exact .inr ⟨⟨hshown, rfl, before, rfl⟩, known, refers⟩
  · rintro (⟨hshown, value, hvalue, hdiffers⟩ | ⟨⟨hshown, hgone, before, hbefore⟩, hlink⟩)
    · refine .changed value ?_ ((Change.differs_iff _ _).mp hdiffers)
      rw [shown]
      exact Entity.get?_visible_eq_some.mpr ⟨hshown, hvalue⟩
    · rw [hbefore, hgone, Change.isLink_of_gone, known_iff] at hlink
      refine .unlinked before hbefore hlink.1 hlink.2 ?_
      rw [shown, Entity.get?_visible, hshown]
      exact hgone

/-! ## Patches -/

/-- Only `null` is the same as `null`. -/
theorem Value.same_null {value : Value} (h : value ≠ .null) : value.same .null = false := by
  rw [← Bool.not_eq_true, Value.same_iff]
  cases value with
  | null => exact absurd rfl h
  | bool | number | string | array | object => simp [Value.normal]

theorem Change.get?_effective (document patch : Fields) (name : String) :
    (effective document patch).get? name = (patch.get? name).filter fun value =>
      name != idField && !(value.isNull && !document.contains name) := by
  rw [effective, Dict.get?_filter]

section

variable {patch old new : Fields} {collections : List String} {field : String}

/-- What a patch takes out is named if it held something. -/
theorem has_ofPatch_of_unset {before : Value} (hid : field ≠ idField)
    (unset : patch.get? field = some .null) (was : (Entity.visible old).get? field = some before)
    (something : before ≠ .null) :
    (Change.ofPatch (Entity.visible old) patch collections).Has field := by
  have heffective : (Change.effective (Entity.visible old) patch).get? field = some .null := by
    rw [Change.get?_effective, unset]
    simp [Option.filter, hid, Dict.contains, was]
  refine Change.has_between_iff.mpr (.inl (Change.mem_changedNames_iff.mpr ?_))
  refine ⟨(Entity.get?_visible_eq_some.mp was).1, .null, heffective, ?_⟩
  rw [was]
  exact (Change.differs_iff _ _).mpr fun _ hbefore =>
    Option.some.inj hbefore ▸ Value.same_null something

/-- What a patch makes due is named. -/
theorem has_ofPatch_of_due {m : Memory}
    (patches : ∀ name, isInternal name = false → new.get? name = Manager.patched patch old name)
    (due : Due m old new field) :
    (Change.ofPatch (Entity.visible old) patch collections).Has field := by
  cases due with
  | changed value now other =>
    obtain ⟨hshown, hnew⟩ := Entity.get?_visible_eq_some.mp now
    -- a field that holds what it held is not due
    have moved : old.get? field ≠ some value := by
      intro hold
      have hsame := other value (Entity.get?_visible_eq_some.mpr ⟨hshown, hold⟩)
      simp at hsame
    rw [patches field hshown, Manager.patched] at hnew
    by_cases hid : field = idField
    · rw [if_pos hid] at hnew
      exact absurd hnew moved
    rw [if_neg hid] at hnew
    cases hpatch : patch.get? field with
    | none =>
      rw [hpatch] at hnew
      exact absurd hnew moved
    | some given =>
      simp only [hpatch, Option.ite_none_left_eq_some, Option.some.injEq] at hnew
      obtain ⟨hset, rfl⟩ := hnew
      have heffective : (Change.effective (Entity.visible old) patch).get? field
          = some given := by
        rw [Change.get?_effective, hpatch]
        simp [Option.filter, hid, hset]
      refine Change.has_between_iff.mpr (.inl (Change.mem_changedNames_iff.mpr ?_))
      exact ⟨hshown, given, heffective, (Change.differs_iff _ _).mpr other⟩
  | unlinked before was known refers gone =>
    obtain ⟨hshown, hold⟩ := Entity.get?_visible_eq_some.mp was
    rw [Entity.get?_visible, hshown] at gone
    have hgone : Manager.patched patch old field = none := (patches field hshown).symm.trans gone
    rw [Manager.patched, hold] at hgone
    by_cases hid : field = idField
    · rw [if_pos hid] at hgone
      cases hgone
    rw [if_neg hid] at hgone
    cases hpatch : patch.get? field with
    | none =>
      rw [hpatch] at hgone
      cases hgone
    | some given =>
      -- the patch can only have taken it out
      have hnull : given = .null := by
        cases given with
        | null => rfl
        | bool | number | string | array | object => simp [hpatch, Value.isNull] at hgone
      subst hnull
      refine has_ofPatch_of_unset hid hpatch was ?_
      rintro rfl
      rcases refers with hscalar | ⟨items, harray, -⟩
      · cases hscalar
      · cases harray

end

end LinkedDocs
