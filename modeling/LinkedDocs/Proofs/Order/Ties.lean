import LinkedDocs.Proofs.Json.Spelling
import LinkedDocs.Proofs.Order.Comparison

/-!
# What compares equal

Sorting keeps the order of entities that compare equal, so it matters which do. Comparison is not
equality of values, in either direction:

> `Order.compareAll_integers`: two integers compare by number, unless both are rounded to the same
> double. Then they tie, but both are at least `2^53` from zero and at most 2048 apart.
>
> `Order.equal_values_tie`: two entities with equal values under all keys tie if and only if no
> array or object is written differently in the two.
-/

namespace LinkedDocs.Order

/-! ## Integers -/

theorem compareAll_single (field : String) (descending : Bool) (a b : Entity) :
    compareAll [⟨field, descending⟩] a b = compareBy ⟨field, descending⟩ a b := by
  rw [compareAll, compareAll]
  cases compareBy ⟨field, descending⟩ a b <;> rfl

/-- **Integers sort by number unless they round to the same double.** Then they tie in both
directions; this happens only to integers that are both at least `2^53` or both at most `-2^53`, and
at most 2048 apart. -/
theorem compareAll_integers {field : String} {a b : Entity} {x y : Int}
    (ha : a.get? field = some (.ofInt x)) (hb : b.get? field = some (.ofInt y))
    (hlow : -0x8000000000000000 ≤ x) (hhigh : y < 0x10000000000000000) (hxy : x < y) :
    (Double.roundInt x ≠ Double.roundInt y →
      compareAll [⟨field, false⟩] a b = .lt ∧ compareAll [⟨field, true⟩] a b = .gt) ∧
    (Double.roundInt x = Double.roundInt y →
      (compareAll [⟨field, false⟩] a b = .eq ∧ compareAll [⟨field, true⟩] a b = .eq) ∧
      (0x20000000000000 ≤ x ∨ y ≤ -0x20000000000000) ∧ y - x ≤ 2048) := by
  have hcompare : compareValues (a.get? field) (b.get? field)
      = compare (Double.unitsOfInt x) (Double.unitsOfInt y) := by
    rw [ha, hb]
    rfl
  rw [compareAll_single, compareAll_single, compareBy, compareBy]
  dsimp only
  rw [hcompare]
  constructor
  · intro hne
    have hround : Double.roundInt x < Double.roundInt y := by
      have hle := Double.roundInt_mono hxy.le
      omega
    rw [Int.compare_eq_lt.mpr ((Double.unitsOfInt_lt_iff x y).mpr hround)]
    exact ⟨rfl, rfl⟩
  · intro heq
    have hunits : Double.unitsOfInt x = Double.unitsOfInt y := by
      rw [Double.unitsOfInt_eq, Double.unitsOfInt_eq, heq]
    rw [Int.compare_eq_eq.mpr hunits]
    exact ⟨⟨rfl, rfl⟩, Double.beyond_of_roundInt_eq hxy heq,
      Double.close_of_roundInt_eq hlow hhigh hxy heq⟩

/-- A document that counts something. -/
def counted (id : String) (n : Int) : Entity := .withId (Dict.ofList [("n", .ofInt n)]) id

theorem get?_counted (id : String) (n : Int) : (counted id n).get? "n" = some (.ofInt n) := rfl

theorem compareAll_integers_longest :
    compareAll [⟨"n", false⟩] (counted "1" 9223372036854775807) (counted "2" 18446744073709551615)
      = .lt ∧
    compareAll [⟨"n", true⟩] (counted "1" 9223372036854775807) (counted "2" 18446744073709551615)
      = .gt :=
  (compareAll_integers (get?_counted "1" 9223372036854775807)
    (get?_counted "2" 18446744073709551615) (by decide) (by decide) (by decide)).1
    (by decide +kernel)

/-- The number after `2^53` is rounded to it, so a document that counts one more does not sort
behind. -/
theorem neighbours_tie :
    (counted "2" 9007199254740992).get? "n" = some (.ofInt 9007199254740992) ∧
    (counted "1" 9007199254740993).get? "n" = some (.ofInt 9007199254740993) ∧
    compareAll [⟨"n", false⟩] (counted "2" 9007199254740992) (counted "1" 9007199254740993) = .eq ∧
    compareAll [⟨"n", true⟩] (counted "2" 9007199254740992) (counted "1" 9007199254740993) = .eq := by
  decide +kernel

/-! ## Equal values -/

/-- The value of a sort key in an entity; an absent one counts as `null`. -/
def valueUnder (key : SortKey) (e : Entity) : Value := (e.get? key.field).getD .null

/-- An array or an object is the same value in both places: its members are in the same order, at
every depth, and its zeros have the same signs. -/
def WrittenAlike : Value → Value → Prop
  | .array items, w => .array items = w
  | .object members, w => .object members = w
  | _, _ => True

/-- Values compare equal if their kind, their number and their text are equal. -/
theorem compareValues_eq_iff {v w : Option Value} : compareValues v w = .eq ↔
    rank v = rank w ∧ measure v = measure w ∧ wording v = wording w := by
  simp only [compareValues_eq, compareLex, compareOn, Ordering.then_eq_eq]
  rw [Std.compare_eq_iff_eq, Std.compare_eq_iff_eq, Std.compare_eq_iff_eq]

/-- Absent values are compared as `null` is. -/
theorem compareValues_getD (v w : Option Value) :
    compareValues (some (v.getD .null)) (some (w.getD .null)) = compareValues v w := by
  rw [compareValues_eq, compareValues_eq]
  cases v <;> cases w <;> rfl

theorem compareBy_eq_iff {key : SortKey} {a b : Entity} : compareBy key a b = .eq ↔
    compareValues (some (valueUnder key a)) (some (valueUnder key b)) = .eq := by
  unfold compareBy valueUnder
  rw [compareValues_getD]
  dsimp only
  split
  · exact Ordering.swap_eq_eq
  · rfl

variable {v w : Value}

theorem rank_normal (v : Value) : rank (some v.normal) = rank (some v) := by
  cases v <;> rfl

theorem measure_normal (v : Value) : measure (some v.normal) = measure (some v) := by
  cases v with
  | number n => exact n.units_unsignedZero
  | _ => rfl

theorem rank_same (h : v.Same w) : rank (some v) = rank (some w) := by
  rw [← rank_normal v, ← rank_normal w, (Value.same_iff v w).mp h]

theorem measure_same (h : v.Same w) : measure (some v) = measure (some w) := by
  rw [← measure_normal v, ← measure_normal w, (Value.same_iff v w).mp h]

/-- What is written alike has one text. -/
theorem wording_same (h : v.Same w) (hwritten : WrittenAlike v w) :
    wording (some v) = wording (some w) := by
  have hnormal := (Value.same_iff v w).mp h
  cases v with
  | array items => rw [show Value.array items = w from hwritten]
  | object members => rw [show Value.object members = w from hwritten]
  | number n =>
    cases w with
    | number m => rfl
    | _ => cases hnormal
  | _ =>
    cases w <;> cases hnormal
    rfl

/-- Equal values with one text are written alike. -/
theorem writtenAlike_of_wording_eq (h : v.Same w) (hv : v.namesDistinct = true)
    (hw : w.namesDistinct = true) (hwording : wording (some v) = wording (some w)) :
    WrittenAlike v w := by
  have hnormal := (Value.same_iff v w).mp h
  cases v with
  | array items =>
    cases w with
    | array items' => exact h.eq_of_text_eq hv hw hwording
    | _ => cases hnormal
  | object members =>
    cases w with
    | object members' => exact h.eq_of_text_eq hv hw hwording
    | _ => cases hnormal
  | _ => trivial

/-- Under one key, equal values that are written alike compare equal. -/
theorem compareBy_same {key : SortKey} {a b : Entity}
    (h : (valueUnder key a).Same (valueUnder key b))
    (hwritten : WrittenAlike (valueUnder key a) (valueUnder key b)) : compareBy key a b = .eq :=
  compareBy_eq_iff.mpr (compareValues_eq_iff.mpr ⟨rank_same h, measure_same h,
    wording_same h hwritten⟩)

/-- Two entities that compare equal keep their order. -/
theorem filter_sort_pair {order : Order} {a b : Entity} (h : compareAll order a b = .eq)
    (entities : List Entity) :
    (order.sort entities).filter (fun e => decide (e = a ∨ e = b))
      = entities.filter fun e => decide (e = a ∨ e = b) := by
  have hself : ∀ e, compareAll order e e = .eq := fun e => Std.ReflCmp.compare_self
  have hswap : compareAll order b a = .eq := Std.OrientedCmp.eq_comm.mp h
  refine filter_sort order fun c _ hc d _ hd => ?_
  obtain rfl | rfl := of_decide_eq_true hc <;> obtain rfl | rfl := of_decide_eq_true hd
  · exact hself _
  · exact h
  · exact hswap
  · exact hself _

/-- **Equal values decide the order only where arrays or objects are written differently.** Of two
entities with equal values under all keys, if no array or object among these is written differently
in the two, they compare equal and keep their order. If one is, they do not compare equal, as long
as no object repeats a name; values that are read do not (`Value.namesDistinct_of_ofText?`). -/
theorem equal_values_tie (order : Order) {a b : Entity}
    (hsame : ∀ key ∈ order, (valueUnder key a).Same (valueUnder key b)) :
    ((∀ key ∈ order, WrittenAlike (valueUnder key a) (valueUnder key b)) →
      compareAll order a b = .eq ∧
      ∀ entities, (order.sort entities).filter (fun e => decide (e = a ∨ e = b))
        = entities.filter fun e => decide (e = a ∨ e = b)) ∧
    ((∀ key ∈ order, (valueUnder key a).namesDistinct = true ∧
        (valueUnder key b).namesDistinct = true) →
      compareAll order a b = .eq →
      ∀ key ∈ order, WrittenAlike (valueUnder key a) (valueUnder key b)) := by
  constructor
  · intro hwritten
    have htie : compareAll order a b = .eq := compareAll_eq_iff.mpr fun key hkey =>
      compareBy_same (hsame key hkey) (hwritten key hkey)
    exact ⟨htie, filter_sort_pair htie⟩
  · intro hdistinct htie key hkey
    obtain ⟨ha, hb⟩ := hdistinct key hkey
    have hcompare := compareBy_eq_iff.mp (compareAll_eq_iff.mp htie key hkey)
    exact writtenAlike_of_wording_eq (hsame key hkey) ha hb (compareValues_eq_iff.mp hcompare).2.2

/-- A document with labels. -/
def labelled (id : String) (labels : List (String × Value)) : Entity :=
  .withId (Dict.ofList [("labels", .object labels)]) id

/-- By labels. -/
def byLabels : Order := [⟨"labels", false⟩]

/-- Two labels in one order of writing. -/
def zoneAndTier : List (String × Value) := [("zone", .ofInt 1), ("tier", .ofInt 2)]

/-- The same labels in the other order. -/
def tierAndZone : List (String × Value) := [("tier", .ofInt 2), ("zone", .ofInt 1)]

theorem equal_values_tie_zone_and_tier :
    compareAll byLabels (labelled "1" zoneAndTier) (labelled "2" zoneAndTier) = .eq ∧
    WrittenAlike (.object zoneAndTier) (.object zoneAndTier) := by
  have hsame : ∀ key ∈ byLabels, (valueUnder key (labelled "1" zoneAndTier)).Same
      (valueUnder key (labelled "2" zoneAndTier)) :=
    List.forall_mem_singleton.mpr (Value.same_refl _)
  have hwritten : ∀ key ∈ byLabels, WrittenAlike (valueUnder key (labelled "1" zoneAndTier))
      (valueUnder key (labelled "2" zoneAndTier)) :=
    List.forall_mem_singleton.mpr rfl
  have htie := ((equal_values_tie byLabels hsame).1 hwritten).1
  refine ⟨htie, ?_⟩
  exact (equal_values_tie byLabels hsame).2 (by decide +kernel) htie ⟨"labels", false⟩ (by decide)

/-- Equal labels that are written in another order do not tie, and the documents are sorted the
other way round. -/
theorem tier_sorts_before_zone :
    (∀ key ∈ byLabels, (valueUnder key (labelled "1" zoneAndTier)).Same
      (valueUnder key (labelled "2" tierAndZone))) ∧
    compareAll byLabels (labelled "1" zoneAndTier) (labelled "2" tierAndZone) = .gt ∧
    byLabels.sort [labelled "1" zoneAndTier, labelled "2" tierAndZone]
      = [labelled "2" tierAndZone, labelled "1" zoneAndTier] := by
  have hgreater : compareAll byLabels (labelled "1" zoneAndTier) (labelled "2" tierAndZone)
      = .gt := by
    decide +kernel
  refine ⟨List.forall_mem_singleton.mpr ?_, hgreater, ?_⟩
  · unfold Value.Same
    decide +kernel
  · rw [sort, List.mergeSort]
    simp [hgreater]

end LinkedDocs.Order
