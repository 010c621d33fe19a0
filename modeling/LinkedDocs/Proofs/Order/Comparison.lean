import LinkedDocs.Order
import LinkedDocs.Proofs.Decimal.Rounding

/-!
# Comparing and sorting entities

Values of all kinds are compared in one line: first by the rank of their kind, then by the number,
then by the text that they have within the kind (`Order.compareValues_eq`). Each of the three is a
linear order, so the comparison of values is total and transitive; reversing it for a descending
key, and taking one key after another, keeps it so. Hence sorting does what it should:

> `Order.sorts_stably`: the entities are permuted, none stands before a lesser one, and those that
> compare equal keep their order.

That some compare equal which are not equal does no harm here, since of the numbers and texts only
their order is used.
-/

namespace LinkedDocs.Order

/-! ## Field values -/

/-- The number by which a value is compared with others of its kind. -/
def measure : Option Value → Int
  | some (.number n) => n.units
  | some (.bool b) => b.toNat
  | _ => 0

/-- The text by which a value is compared with others of its kind. -/
def wording : Option Value → String
  | some (.string s) => s
  | some (.object members) => (Value.object members).text
  | some (.array items) => (Value.array items).text
  | _ => ""

/-- Values are compared by their kind, then by their number, then by their text. -/
theorem compareValues_eq (v w : Option Value) : compareValues v w
    = compareLex (compareOn rank) (compareLex (compareOn measure) (compareOn wording)) v w := by
  have hnumber : ∀ x y : Int, compare x y = (compare x y).then (compare "" "") := by
    intro x y
    cases compare x y <;> rfl
  have hbool : ∀ b c : Bool,
      compare b.toNat c.toNat = (compare (b.toNat : Int) c.toNat).then (compare "" "") := by
    decide
  -- values of two kinds are told apart by their ranks alone
  rcases v with _ | (_ | b | n | _ | _ | _) <;> rcases w with _ | (_ | c | m | _ | _ | _)
  case some.number.some.number => exact hnumber n.units m.units
  case some.bool.some.bool => exact hbool b c
  all_goals rfl

instance : Std.TransCmp compareValues := by
  rw [show compareValues = _ from funext fun v => funext (compareValues_eq v)]
  infer_instance

/-- Numbers are compared by the finite numbers that they are, or are nearest to. -/
theorem compareValues_numbers {m n : Number} (hm : m.Fits) (hn : n.Fits) :
    ∃ x y : Double, m.double? = some x ∧ n.double? = some y ∧
      compareValues (some (.number m)) (some (.number n)) = compare x.units y.units := by
  obtain ⟨x, hx⟩ := hm.exists_double?
  obtain ⟨y, hy⟩ := hn.exists_double?
  refine ⟨x, y, hx, hy, ?_⟩
  rw [compareValues, Number.units_of_double? hx, Number.units_of_double? hy]

/-! ## Entities -/

/-- A descending key compares the other way round. -/
theorem compareBy_eq (key : SortKey) (a b : Entity) : compareBy key a b
    = if key.descending then compareValues (b.get? key.field) (a.get? key.field)
      else compareValues (a.get? key.field) (b.get? key.field) := by
  unfold compareBy
  dsimp only
  split
  · exact Std.OrientedCmp.eq_swap.symm
  · rfl

instance (key : SortKey) : Std.TransCmp (compareBy key) where
  eq_swap {a b} := by
    rw [compareBy_eq, compareBy_eq]
    split <;> exact Std.OrientedCmp.eq_swap
  isLE_trans {a b c} hab hbc := by
    rw [compareBy_eq] at hab hbc ⊢
    split at hab
    · next h =>
      rw [if_pos h] at hbc ⊢
      exact Std.TransCmp.isLE_trans hbc hab
    · next h =>
      rw [if_neg h] at hbc ⊢
      exact Std.TransCmp.isLE_trans hab hbc

instance transCmp_compareAll : ∀ order : Order, Std.TransCmp (compareAll order)
  | [] => { eq_swap := rfl, isLE_trans := fun _ _ => rfl }
  | key :: keys =>
    have := transCmp_compareAll keys
    inferInstanceAs (Std.TransCmp (compareLex (compareBy key) (compareAll keys)))

/-- Two entities compare equal if no key tells them apart. -/
theorem compareAll_eq_iff {order : Order} {a b : Entity} :
    compareAll order a b = .eq ↔ ∀ key ∈ order, compareBy key a b = .eq := by
  induction order with
  | nil => simp [compareAll]
  | cons key keys ih => rw [compareAll, Ordering.then_eq_eq, ih, List.forall_mem_cons]

/-- What is not greater than something not greater is not greater. -/
theorem compareAll_trans {order : Order} {a b c : Entity} (hab : compareAll order a b ≠ .gt)
    (hbc : compareAll order b c ≠ .gt) : compareAll order a c ≠ .gt :=
  Ordering.ne_gt_iff_isLE.mpr (Std.TransCmp.isLE_trans (Ordering.ne_gt_iff_isLE.mp hab)
    (Ordering.ne_gt_iff_isLE.mp hbc))

/-! ## Sorting -/

variable (order : Order)

/-- Whether an entity may stand before another. -/
def mayPrecede (a b : Entity) : Bool := compareAll order a b != .gt

theorem mayPrecede_iff {a b : Entity} : mayPrecede order a b = true ↔ compareAll order a b ≠ .gt :=
  bne_iff_ne

theorem mayPrecede_trans (a b c : Entity) (hab : mayPrecede order a b = true)
    (hbc : mayPrecede order b c = true) : mayPrecede order a c = true := by
  rw [mayPrecede_iff] at hab hbc ⊢
  exact compareAll_trans hab hbc

theorem mayPrecede_total (a b : Entity) :
    (mayPrecede order a b || mayPrecede order b a) = true := by
  have hswap : compareAll order a b = (compareAll order b a).swap := Std.OrientedCmp.eq_swap
  unfold mayPrecede
  rw [hswap]
  cases compareAll order b a <;> rfl

theorem sort_perm (entities : List Entity) : (order.sort entities).Perm entities :=
  List.mergeSort_perm ..

/-- No entity stands before one that is less. -/
theorem pairwise_sort (entities : List Entity) :
    (order.sort entities).Pairwise fun a b => compareAll order a b ≠ .gt :=
  (List.pairwise_mergeSort (mayPrecede_trans order) (mayPrecede_total order) entities).imp
    (mayPrecede_iff order).mp

/-- Entities that compare equal among each other keep their order. -/
theorem filter_sort {entities : List Entity} {keep : Entity → Bool}
    (h : ∀ a ∈ entities, keep a = true → ∀ b ∈ entities, keep b = true →
      compareAll order a b = .eq) :
    (order.sort entities).filter keep = entities.filter keep := by
  have hpairwise : (entities.filter keep).Pairwise fun a b => mayPrecede order a b = true := by
    refine List.pairwise_of_forall_mem_list fun a ha b hb => ?_
    rw [List.mem_filter] at ha hb
    rw [mayPrecede_iff, h a ha.1 ha.2 b hb.1 hb.2]
    decide
  have hkept : (entities.filter keep).Sublist (order.sort entities) :=
    List.sublist_mergeSort (mayPrecede_trans order) (mayPrecede_total order) hpairwise
      List.filter_sublist
  have hfilter : (entities.filter keep).Sublist ((order.sort entities).filter keep) := by
    have hself := hkept.filter keep
    rwa [List.filter_eq_self.mpr fun a ha => (List.mem_filter.mp ha).2] at hself
  exact (hfilter.eq_of_length ((sort_perm order entities).filter keep).length_eq.symm).symm

/-- **Orders are total preorders, and sorting by them is stable.** Under every list of keys an entity
compares equal to itself, exchanging two entities reverses the comparison, and what is not greater
than something not greater is not greater. So sorting permutes the entities, puts none before one
that is less, and keeps the order of those that compare equal. Numbers are compared by the finite
numbers that they are, or are nearest to. -/
theorem sorts_stably :
    (∀ a, compareAll order a a = .eq) ∧
    (∀ a b, compareAll order b a = (compareAll order a b).swap) ∧
    (∀ a b c, compareAll order a b ≠ .gt → compareAll order b c ≠ .gt →
      compareAll order a c ≠ .gt) ∧
    (∀ entities, (order.sort entities).Perm entities ∧
      (order.sort entities).Pairwise (fun a b => compareAll order a b ≠ .gt) ∧
      ∀ e, (order.sort entities).filter (fun a => compareAll order e a == .eq)
        = entities.filter fun a => compareAll order e a == .eq) ∧
    ∀ m n : Number, m.Fits → n.Fits → ∃ x y : Double, m.double? = some x ∧ n.double? = some y ∧
      compareValues (some (.number m)) (some (.number n)) = compare x.units y.units := by
  refine ⟨fun a => Std.ReflCmp.compare_self, fun a b => Std.OrientedCmp.eq_swap,
    fun a b c => compareAll_trans, ?_, fun m n => compareValues_numbers⟩
  intro entities
  refine ⟨sort_perm order entities, pairwise_sort order entities, fun e => ?_⟩
  refine filter_sort order fun a _ ha b _ hb => ?_
  rw [beq_iff_eq] at ha hb
  have hae : compareAll order a e = .eq := Std.OrientedCmp.eq_comm.mp ha
  exact Std.TransCmp.eq_trans hae hb

/-- A document of some size. -/
def sized (id : String) (size : Value) : Entity := .withId (Dict.ofList [("size", size)]) id

/-- By falling size a text comes before a number and this before `null`, so the text comes before
`null`; an integer beyond `2^53` is compared through the double nearest to it. -/
theorem sorts_stably_sizes :
    compareAll [⟨"size", true⟩] (sized "1" (.string "large")) (sized "3" .null) ≠ .gt ∧
    ∃ x y : Double, (Number.integer 9007199254740993).double? = some x ∧
      (Number.integer (-1)).double? = some y ∧
      compareValues (some (.ofInt 9007199254740993)) (some (.ofInt (-1)))
        = compare x.units y.units := by
  obtain ⟨-, -, htrans, -, hnumbers⟩ := sorts_stably [⟨"size", true⟩]
  constructor
  · exact htrans _ (sized "2" (.ofInt 4)) _ (by decide +kernel) (by decide +kernel)
  · exact hnumbers (.integer 9007199254740993) (.integer (-1)) ⟨by decide, by decide⟩
      ⟨by decide, by decide⟩

end LinkedDocs.Order
