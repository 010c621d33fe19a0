import LinkedDocs.Proofs.Permission.Narrowing

/-!
# Which searches are denied

The values that a filter names for the id (`Filter.namedIds`) are those of its equalities and
memberships on the field `id`, in the order in which they are written; a pattern names none. A
search of a restricted collection goes through if all of them are granted, and the first one that is
not is what the error tells.

Together with `holds_narrow` this says all there is to say about narrowing (`narrow_exact`): when it
fails, with what, and which entities pass otherwise.
-/

namespace LinkedDocs

/-- The values that a filter names for the id, in its order. -/
def Filter.namedIds (filter : Filter) : List Value :=
  (filter.filter (·.field == idField)).flatMap fun condition =>
    match condition.test with
    | .equals value => [value]
    | .isIn values => values
    | .glob _ => []

namespace Permission

/-- The value is a scalar, and its text an id that is granted. -/
def Grants (p : Permission) (collection : String) (value : Value) : Prop :=
  ∃ id, value.scalarText? = some id ∧ id ∈ p.whitelist collection

theorem allows_iff (p : Permission) (collection : String) (value : Value) :
    allows (p.whitelist collection) value = true ↔ p.Grants collection value := by
  unfold allows Grants
  cases value.scalarText? with
  | none => simp
  | some id => simp

/-- The tests of the id, taken out of a filter, name what the filter names. -/
theorem flatMap_named? (filter : Filter) :
    ((filter.takeField idField).1.flatMap fun test => (named? test).getD []) = filter.namedIds := by
  rw [Filter.takeField, Filter.namedIds, List.flatMap_map]
  congr 1
  funext condition
  cases condition.test <;> rfl

/-- The first value that is denied. -/
theorem firstDenied_eq_some_iff (p : Permission) (collection : String) (filter : Filter)
    (value : Value) :
    firstDenied (p.whitelist collection) (filter.takeField idField).1 = some value ↔
      ∃ before after, filter.namedIds = before ++ value :: after ∧
        (∀ earlier ∈ before, p.Grants collection earlier) ∧ ¬ p.Grants collection value := by
  rw [firstDenied, flatMap_named?, List.find?_eq_some_iff_append]
  constructor
  · rintro ⟨hdenied, before, after, hsplit, hbefore⟩
    refine ⟨before, after, hsplit, fun earlier hearlier => ?_, fun hgrants => ?_⟩
    · exact (allows_iff p collection earlier).mp (by simpa using hbefore earlier hearlier)
    · rw [(allows_iff p collection value).mpr hgrants] at hdenied
      cases hdenied
  · rintro ⟨before, after, hsplit, hbefore, hdenied⟩
    refine ⟨?_, before, after, hsplit, fun earlier hearlier => ?_⟩
    · rw [← allows_iff] at hdenied
      simpa using hdenied
    · rw [(allows_iff p collection earlier).mpr (hbefore earlier hearlier)]
      rfl

theorem firstDenied_eq_none (p : Permission) (collection : String) (filter : Filter) :
    firstDenied (p.whitelist collection) (filter.takeField idField).1 = none ↔
      ∀ value ∈ filter.namedIds, p.Grants collection value := by
  rw [firstDenied, flatMap_named?, List.find?_eq_none]
  refine forall₂_congr fun value _ => ?_
  rw [Bool.not_eq_true, Bool.not_eq_false', allows_iff]

/-- Narrowing fails only in a restricted collection, with the first value that is denied. -/
theorem narrow_eq_error_iff (p : Permission) (collection : String) (filter : Filter)
    (error : QueryError) :
    p.narrow collection filter = .error error ↔
      p.restricts collection = true ∧ ∃ value,
        firstDenied (p.whitelist collection) (filter.takeField idField).1 = some value ∧
          error = .forbidden collection (value.scalarText?.getD value.text) := by
  rw [narrow]
  by_cases hrestricts : p.restricts collection = true
  · rw [if_pos hrestricts]
    dsimp only
    cases firstDenied (p.whitelist collection) (filter.takeField idField).1 with
    | some value => simp [hrestricts, eq_comm]
    | none =>
      dsimp only
      split <;> simp
  · simp [hrestricts]

/-- **Narrowing a search is exact.** It succeeds if the collection is not restricted or every value
that the filter names for the id is granted. If it fails, the error is that access is forbidden to
the first value that is not granted, told by its text. If it succeeds, the narrowed filter lets
through the entities that the filter lets through and of which the caller may see the id. -/
theorem narrow_exact (p : Permission) (collection : String) (filter : Filter) :
    ((∃ narrowed, p.narrow collection filter = .ok narrowed) ↔
      p.restricts collection = false ∨ ∀ value ∈ filter.namedIds, p.Grants collection value) ∧
    (∀ error, p.narrow collection filter = .error error →
      ∃ before value after, filter.namedIds = before ++ value :: after ∧
        (∀ earlier ∈ before, p.Grants collection earlier) ∧ ¬ p.Grants collection value ∧
        error = .forbidden collection (value.scalarText?.getD value.text)) ∧
    ∀ narrowed, p.narrow collection filter = .ok narrowed →
      ∀ e, narrowed.holds e = true ↔ filter.holds e = true ∧ p.check collection e.id = true := by
  refine ⟨⟨?_, ?_⟩, ?_, ?_⟩
  · rintro ⟨narrowed, hok⟩
    by_cases hrestricts : p.restricts collection = true
    · right
      rw [← firstDenied_eq_none, Option.eq_none_iff_forall_not_mem]
      intro value hvalue
      have herror :=
        (narrow_eq_error_iff p collection filter _).mpr ⟨hrestricts, value, hvalue, rfl⟩
      rw [hok] at herror
      cases herror
    · exact .inl (Bool.eq_false_iff.mpr hrestricts)
  · intro hgranted
    cases hnarrow : p.narrow collection filter with
    | ok narrowed => exact ⟨narrowed, rfl⟩
    | error error =>
      obtain ⟨hrestricts, value, hdenied, -⟩ := (narrow_eq_error_iff _ _ _ _).mp hnarrow
      rcases hgranted with hfree | hall
      · rw [hfree] at hrestricts
        cases hrestricts
      · rw [(firstDenied_eq_none p collection filter).mpr hall] at hdenied
        cases hdenied
  · intro error herror
    obtain ⟨-, value, hdenied, heq⟩ := (narrow_eq_error_iff _ _ _ _).mp herror
    obtain ⟨before, after, hsplit, hbefore, hvalue⟩ :=
      (firstDenied_eq_some_iff p collection filter value).mp hdenied
    exact ⟨before, value, after, hsplit, hbefore, hvalue, heq⟩
  · intro narrowed hok e
    rw [holds_narrow hok e, Bool.and_eq_true]

/-- Of three conditions on the id the second one names a list, which is no id, after one that is
granted as a number. -/
example :
    (Permission.granted false [("vm", .ids ["1", "2"])]).narrow "vm"
      [⟨"id", .isIn [.ofInt 2, .array []]⟩, ⟨"name", .equals .null⟩, ⟨"id", .equals (.ofInt 3)⟩]
      = .error (.forbidden "vm" "[]") := by rfl

end Permission

end LinkedDocs
