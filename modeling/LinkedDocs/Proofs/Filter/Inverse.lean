import LinkedDocs.Pass
import LinkedDocs.Proofs.Filter.Membership

/-!
# Links back

A document without a field for a target is linked from the other side: a many link to the target
picks the documents there that refer back to it. Whether a document refers forward is decided by the
shape of its field (`Entity.link`); whether one refers back is decided by an equality of that field
with the id, and an equality with a text holds of an array if it holds of one item.

The two agree on every field but one kind: an array of ids and other values is no link, and still
the ids in it count backwards.

> `inverse_selects_iff`: the documents that are picked are those whose link names the id, and those
> whose field is such an array with the id in it.

`inverse_selects_mixed` is a document of the second kind.
-/

namespace LinkedDocs

/-- The link names the id, alone or with others. -/
def Link.Names (link : Link) (id : String) : Prop :=
  link = .single id ∨ ∃ ids, link = .many ids ∧ id ∈ ids

/-- The field is an array with the id in it, but no link, for the sake of other items. -/
def Entity.HoldsBesides (e : Entity) (field id : String) : Prop :=
  e.link field = .invalid ∧
    ∃ items, e.get? field = some (.array items) ∧ ∃ item ∈ items, item.scalarText? = some id

/-- An equality with a text is passed by the scalars that have it. -/
theorem Test.passes_equals_string (id : String) (value : Value) :
    (Test.equals (.string id)).passes value = true ↔ value.scalarText? = some id := by
  show (Value.string id).equalTo value = true ↔ _
  unfold Value.equalTo
  cases value with
  | string s =>
    simp only [Value.scalarText?, beq_iff_eq, Option.some.injEq]
    exact eq_comm
  | number n =>
    simp only [Value.scalarText?, beq_iff_eq, Option.some.injEq]
    exact eq_comm
  | null => simp [Value.scalarText?, Value.same, Value.normal]
  | bool b => simp [Value.scalarText?, Value.same, Value.normal]
  | array items => simp [Value.scalarText?, Value.same, Value.normal]
  | object members => simp [Value.scalarText?, Value.same, Value.normal]

/-- Where all items are scalars, their texts are the ids. -/
theorem mem_of_scalarTexts? {items : List Value} {ids : List String}
    (h : scalarTexts? items = some ids) (id : String) :
    id ∈ ids ↔ ∃ item ∈ items, item.scalarText? = some id := by
  induction items generalizing ids with
  | nil =>
    cases h
    simp
  | cons item items ih =>
    cases htext : item.scalarText? with
    | none => simp [scalarTexts?, htext] at h
    | some text =>
      cases htexts : scalarTexts? items with
      | none => simp [scalarTexts?, htext, htexts] at h
      | some texts =>
        have hids : text :: texts = ids := by simpa [scalarTexts?, htext, htexts] using h
        subst hids
        simp [htext, ih htexts, eq_comm]

namespace Pass

/-- An equality with an id holds of the fields that link to it, and of arrays with other values
beside it. -/
theorem holds_equals_id_iff (e : Entity) (field id : String) :
    (Test.equals (.string id)).holds (e.get? field) = true ↔
      (e.link field).Names id ∨ e.HoldsBesides field id := by
  by_cases harray : ∃ items, e.get? field = some (.array items)
  · obtain ⟨items, hfield⟩ := harray
    have hholds : (Test.equals (.string id)).holds (e.get? field) = true ↔
        ∃ item ∈ items, item.scalarText? = some id := by
      rw [hfield, Test.holds_array, Test.passes_equals_string]
      simp [Value.scalarText?, Test.wantsArray, Test.passes_equals_string]
    rw [hholds]
    cases htexts : scalarTexts? items with
    | some ids =>
      have hlink : e.link field = .many ids := by
        rw [Entity.link, hfield, Link.ofField, htexts]
      simp [Link.Names, Entity.HoldsBesides, hlink, mem_of_scalarTexts? htexts]
    | none =>
      have hlink : e.link field = .invalid := by
        rw [Entity.link, hfield, Link.ofField, htexts]
      simp [Link.Names, Entity.HoldsBesides, hlink, hfield]
  · have hplain : ∀ items, e.get? field ≠ some (.array items) := fun items h => harray ⟨items, h⟩
    have hbesides : ¬ e.HoldsBesides field id := by
      rintro ⟨-, items, h, -⟩
      exact hplain items h
    rw [Test.holds_of_not_array hplain, Test.passes_equals_string, or_iff_left hbesides]
    unfold Link.Names Entity.link
    cases hfield : e.get? field with
    | none => simp [Link.ofField, Value.scalarText?]
    | some value =>
      cases value with
      | array items => exact absurd hfield (hplain items)
      | null => simp [Link.ofField, Value.scalarText?]
      | bool b => simp [Link.ofField, Value.scalarText?]
      | number n => simp [Link.ofField, Value.scalarText?]
      | string s => simp [Link.ofField, Value.scalarText?]
      | object members => simp [Link.ofField, Value.scalarText?]

/-- **Links back are links forward, read from the other side.** A document without a field for the
target picks there the documents whose link to its collection names its id, and those whose field
for it is an array with the id and other values that are no ids. -/
theorem inverse_selects_iff {collection target : String} {a : Entity} (h : a.get? target = none) :
    ∃ filter, linkFilter? collection a target = some filter ∧
      ∀ e : Entity, filter.holds e = true ↔
        (e.link collection).Names a.id ∨ e.HoldsBesides collection a.id := by
  have habsent : a.link target = .absent := by
    rw [Entity.link, h, Link.ofField]
  refine ⟨[⟨collection, .equals (.string a.id)⟩], by rw [linkFilter?, habsent], fun e => ?_⟩
  rw [Filter.holds_cons, Filter.holds_nil, Bool.and_true]
  exact holds_equals_id_iff e collection a.id

/-- A machine without a field for its disks. -/
def bareMachine : Entity := .withId .empty "1"

/-- A disk with what its field for machines holds. -/
def diskOf (machines : Value) : Entity := .withId (Dict.ofList [("vm", machines)]) "d"

/-- The disk of two machines is picked by the first of them. -/
theorem inverse_selects_shared_disk :
    bareMachine.get? "disk" = none ∧
    ∃ filter, linkFilter? "vm" bareMachine "disk" = some filter ∧
      filter.holds (diskOf (.array [.string "2", .ofInt 1])) = true := by
  have hbare : bareMachine.get? "disk" = none := by decide +kernel
  obtain ⟨filter, hfilter, hselects⟩ := @inverse_selects_iff "vm" _ _ hbare
  have hlink : (diskOf (.array [.string "2", .ofInt 1])).link "vm" = .many ["2", "1"] := by
    decide +kernel
  exact ⟨hbare, filter, hfilter, (hselects _).mpr (.inl (.inr ⟨_, hlink, by decide +kernel⟩))⟩

/-- A disk whose field holds the id of the machine and an object is picked, though its field is no
link. -/
theorem inverse_selects_mixed :
    ∃ filter, linkFilter? "vm" bareMachine "disk" = some filter ∧
      filter.holds (diskOf (.array [.string "1", .object []])) = true ∧
      ¬ ((diskOf (.array [.string "1", .object []])).link "vm").Names bareMachine.id := by
  refine ⟨[⟨"vm", .equals (.string "1")⟩], rfl, by decide +kernel, ?_⟩
  have hlink : (diskOf (.array [.string "1", .object []])).link "vm" = .invalid := by
    decide +kernel
  rw [hlink]
  rintro (h | ⟨ids, h, -⟩)
  · cases h
  · cases h

end Pass

end LinkedDocs
