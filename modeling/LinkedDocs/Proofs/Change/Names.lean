import LinkedDocs.Change
import Mathlib.Tactic.ByContra

/-!
# What a comparison of two versions names

The comparison of two versions of a document keeps fields and links apart, but most of what is to be
said of it does not. `Change.Has` is a name of either kind:

> `Change.has_between_iff`: named are the fields of the new version that are new or hold another
> value, and the links of the old version that the new one does not have.

Links are told by their values, which have to refer to documents (`Value.Refers`), and by their
names, which have to be those of collections.
-/

namespace LinkedDocs

/-- A value refers to documents: it is a scalar id or an array of them. -/
def Value.Refers (value : Value) : Prop :=
  value.scalarText?.isSome ∨ ∃ items, value = .array items ∧ ∀ item ∈ items, item.scalarText?.isSome

namespace Change

variable {old new : Fields} {collections : List String} {name : String}

theorem linkShaped_iff (value : Value) : linkShaped value = true ↔ value.Refers := by
  unfold linkShaped Value.Refers
  cases value <;> simp [Value.scalarText?]

theorem differs_iff (before : Option Value) (value : Value) :
    differs before value = true ↔ ∀ old, before = some old → old.same value = false := by
  cases before <;> simp [differs]

/-- The name is among those of the change, as a field or as a link. -/
def Has (c : Change) (name : String) : Prop := name ∈ c.fields ∨ name ∈ c.links

theorem isEmpty_eq_false_of_has {c : Change} (h : c.Has name) : c.isEmpty = false := by
  rw [← Bool.not_eq_true, isEmpty, Bool.and_eq_true, List.isEmpty_iff, List.isEmpty_iff]
  rintro ⟨hfields, hlinks⟩
  rcases h with h | h
  · rw [hfields] at h
    cases h
  · rw [hlinks] at h
    cases h

theorem Has.mem_names {c : Change} (h : c.Has name) : name ∈ c.names ∨ "@" ++ name ∈ c.names := by
  rcases h with h | h
  · exact .inl (List.mem_append_left _ h)
  · exact .inr (List.mem_append_right _ (List.mem_map_of_mem h))

theorem has_of_mem_names {c : Change} (h : name ∈ c.names) :
    ∃ field, c.Has field ∧ (name = field ∨ name = "@" ++ field) := by
  rcases List.mem_append.mp h with h | h
  · exact ⟨name, .inl h, .inl rfl⟩
  · obtain ⟨field, hfield, rfl⟩ := List.mem_map.mp h
    exact ⟨field, .inr hfield, .inr rfl⟩

theorem names_ne_nil {c : Change} (h : c.isEmpty = false) : c.names ≠ [] := by
  intro hnames
  obtain ⟨hfields, hlinks⟩ := List.append_eq_nil_iff.mp hnames
  simp [isEmpty, hfields, List.map_eq_nil_iff.mp hlinks] at h

theorem isEmpty_iff {c : Change} : c.isEmpty = true ↔ ∀ name, ¬ c.Has name := by
  constructor
  · intro hempty name hname
    rw [isEmpty_eq_false_of_has hname] at hempty
    cases hempty
  · intro hnone
    by_contra hsome
    obtain ⟨name, hname⟩ := List.exists_mem_of_ne_nil _ (names_ne_nil (by simpa using hsome))
    obtain ⟨field, hfield, -⟩ := has_of_mem_names hname
    exact hnone field hfield

theorem mem_changedNames_iff :
    name ∈ changedNames old new ↔ isInternal name = false ∧
      ∃ value, new.get? name = some value ∧ differs (old.get? name) value = true := by
  simp only [changedNames, List.mem_map, List.mem_filter, Bool.and_eq_true, Bool.not_eq_true']
  constructor
  · rintro ⟨⟨key, value⟩, ⟨hmem, hshown, hdiffers⟩, rfl⟩
    exact ⟨hshown, value, new.get?_of_mem hmem, hdiffers⟩
  · rintro ⟨hshown, value, hvalue, hdiffers⟩
    exact ⟨(name, value), ⟨Dict.mem_of_get? hvalue, hshown, hdiffers⟩, rfl⟩

theorem mem_removedNames_iff :
    name ∈ removedNames old new ↔ isInternal name = false ∧ new.get? name = none ∧
      ∃ value, old.get? name = some value := by
  simp only [removedNames, List.mem_map, List.mem_filter, Bool.and_eq_true, Bool.not_eq_true',
    Dict.contains, Option.isSome_eq_false_iff, Option.isNone_iff_eq_none]
  constructor
  · rintro ⟨⟨key, value⟩, ⟨hmem, hgone, hshown⟩, rfl⟩
    exact ⟨hshown, hgone, value, old.get?_of_mem hmem⟩
  · rintro ⟨hshown, hgone, value, hvalue⟩
    exact ⟨(name, value), ⟨Dict.mem_of_get? hvalue, hgone, hshown⟩, rfl⟩

/-- The comparison of two versions names the fields that have changed, and the links that are gone.
-/
theorem has_between_iff :
    (between old new collections).Has name ↔ name ∈ changedNames old new ∨
      name ∈ removedNames old new ∧ isLink collections name (old.get? name) (new.get? name) := by
  simp only [Has, between, List.mem_filter, mem_sortedNames, List.mem_append, Bool.not_eq_true']
  cases isLink collections name (old.get? name) (new.get? name) <;> simp

theorem isLink_of_gone {before : Value} :
    isLink collections name (some before) none = true ↔ name ∈ collections ∧ before.Refers := by
  simp [isLink, linkShaped_iff]

end Change

end LinkedDocs
