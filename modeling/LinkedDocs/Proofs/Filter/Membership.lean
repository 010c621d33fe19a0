import LinkedDocs.Filter

/-!
# Membership as a union of equalities

Asking whether a field is one of several values should be asking for each of them in turn. A single
value passes a membership exactly if it passes one of the equalities (`passes_isIn`). What sets the
two apart are fields that hold arrays: there one item is enough, except for an equality with an
array, which asks for the field as a whole. A membership makes no such exception for the arrays that
it lists.

> `holds_isIn_iff`: a membership holds if one of the equalities does, or if a listed array is an
> item of the field.

So it is the union of the equalities wherever no item of the field is a listed array
(`isIn_iff_exists_equals`), and `listed_array_among_items` is a field where it is not.
-/

namespace LinkedDocs.Test

/-- The field holds an array, and one of its items is an array that is listed. -/
def ListsArrayItem (values : List Value) (field : Option Value) : Prop :=
  ∃ items, field = some (.array items) ∧
    ∃ item ∈ items, ∃ inner, .array inner ∈ values ∧ (Value.array inner).equalTo item = true

theorem passes_isIn (values : List Value) (value : Value) :
    (isIn values).passes value = true ↔ ∃ listed ∈ values, (equals listed).passes value = true := by
  unfold passes
  exact List.any_eq_true

/-- What a test says about a field that holds an array. -/
theorem holds_array (t : Test) (items : List Value) :
    t.holds (some (.array items)) = true ↔
      t.passes (.array items) = true ∨
        t.wantsArray = false ∧ ∃ item ∈ items, t.passes item = true := by
  unfold holds
  simp

/-- All other fields pass as they stand, an absent one as `null`. -/
theorem holds_of_not_array {field : Option Value}
    (h : ∀ items, field ≠ some (.array items)) (t : Test) :
    t.holds field = t.passes (field.getD .null) := by
  unfold holds
  cases field with
  | none => exact Bool.or_false _
  | some value =>
    cases value with
    | array items => exact absurd rfl (h items)
    | null => exact Bool.or_false _
    | bool b => exact Bool.or_false _
    | number n => exact Bool.or_false _
    | string s => exact Bool.or_false _
    | object members => exact Bool.or_false _

/-- Only an equality with an array asks for a field as a whole. -/
theorem wantsArray_equals (value : Value) :
    (equals value).wantsArray = true ↔ ∃ inner, value = .array inner := by
  cases value <;> simp [wantsArray]

/-- A membership holds if one of the equalities does, or if a listed array is an item. -/
theorem holds_isIn_iff (values : List Value) (field : Option Value) :
    (isIn values).holds field = true ↔
      (∃ value ∈ values, (equals value).holds field = true) ∨ ListsArrayItem values field := by
  by_cases harray : ∃ items, field = some (.array items)
  · obtain ⟨items, rfl⟩ := harray
    constructor
    · intro h
      rcases (holds_array _ items).mp h with hwhole | ⟨-, item, hitem, hpasses⟩
      · obtain ⟨value, hvalue, hequal⟩ := (passes_isIn values _).mp hwhole
        exact .inl ⟨value, hvalue, (holds_array _ items).mpr (.inl hequal)⟩
      · obtain ⟨value, hvalue, hequal⟩ := (passes_isIn values item).mp hpasses
        by_cases hwants : (equals value).wantsArray = true
        · obtain ⟨inner, rfl⟩ := (wantsArray_equals value).mp hwants
          exact .inr ⟨items, rfl, item, hitem, inner, hvalue, hequal⟩
        · have hany : (equals value).wantsArray = false := by simpa using hwants
          exact .inl ⟨value, hvalue, (holds_array _ items).mpr (.inr ⟨hany, item, hitem, hequal⟩)⟩
    · intro h
      rw [holds_array]
      rcases h with ⟨value, hvalue, hholds⟩ | ⟨items', hitems, item, hitem, inner, hinner, hequal⟩
      · rcases (holds_array _ items).mp hholds with hwhole | ⟨-, item, hitem, hequal⟩
        · exact .inl ((passes_isIn values _).mpr ⟨value, hvalue, hwhole⟩)
        · exact .inr ⟨rfl, item, hitem, (passes_isIn values item).mpr ⟨value, hvalue, hequal⟩⟩
      · cases hitems
        exact .inr ⟨rfl, item, hitem, (passes_isIn values item).mpr ⟨_, hinner, hequal⟩⟩
  · have hplain : ∀ items, field ≠ some (.array items) := fun items h => harray ⟨items, h⟩
    have hnone : ¬ ListsArrayItem values field := by
      rintro ⟨items, h, -⟩
      exact hplain items h
    simp only [holds_of_not_array hplain, passes_isIn, hnone, or_false]

/-- **Membership is the union of equalities.** A field that no listed array is an item of passes a
membership if and only if it passes the equality with one of the listed values. -/
theorem isIn_iff_exists_equals {values : List Value} {field : Option Value}
    (h : ¬ ListsArrayItem values field) :
    (isIn values).holds field = true ↔ ∃ value ∈ values, (equals value).holds field = true := by
  rw [holds_isIn_iff]
  exact or_iff_left h

/-- An array of numbers and a text, with a number and an array asked for. -/
theorem isIn_iff_exists_equals_mixed :
    ¬ ListsArrayItem [.ofInt 2, .array [.ofInt 1]] (some (.array [.ofInt 1, .string "2"])) ∧
    (isIn [.ofInt 2, .array [.ofInt 1]]).holds (some (.array [.ofInt 1, .string "2"])) = true ∧
    ∃ value ∈ [Value.ofInt 2, .array [.ofInt 1]],
      (equals value).holds (some (.array [.ofInt 1, .string "2"])) = true := by
  have hnone : ¬ ListsArrayItem [.ofInt 2, .array [.ofInt 1]]
      (some (.array [.ofInt 1, .string "2"])) := by
    rintro ⟨items, hitems, item, hitem, inner, -, hequal⟩
    cases hitems
    rcases List.mem_cons.mp hitem with rfl | hitem
    · cases hequal
    · rw [List.mem_singleton.mp hitem] at hequal
      cases hequal
  have hholds : (isIn [.ofInt 2, .array [.ofInt 1]]).holds
      (some (.array [.ofInt 1, .string "2"])) = true := by
    decide +kernel
  exact ⟨hnone, hholds, (isIn_iff_exists_equals hnone).mp hholds⟩

/-- A listed array that is an item of the field passes, though no listed value equals the field. -/
theorem listed_array_among_items :
    (isIn [.array [.string "x"]]).holds (some (.array [.array [.string "x"]])) = true ∧
    ¬ ∃ value ∈ [Value.array [.string "x"]],
      (equals value).holds (some (.array [.array [.string "x"]])) = true := by
  decide +kernel

end LinkedDocs.Test
