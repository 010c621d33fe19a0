import LinkedDocs.Permission

/-!
# Narrowing a search to what is granted

A search of a restricted collection is refused if one of its conditions names an id that is not
granted (`Permission.refuses`). If it is not refused, the narrowed filter lets through exactly what
the caller's filter lets through and the caller may see:

> `holds_narrow`: `narrowed.holds e = (filter.holds e && p.check collection e.id)`.

So checking documents one by one and narrowing a search are the same restriction.
-/

namespace LinkedDocs.Permission

/-- The condition names a value for the id that is not granted. -/
def namesOutside (p : Permission) (collection : String) (c : Condition) : Bool :=
  c.field == idField &&
    ((named? c.test).getD []).any fun value => !allows (p.whitelist collection) value

/-- A search of the collection may not be made: one of its conditions names an id that is not
granted. -/
def refuses (p : Permission) (collection : String) (filter : Filter) : Bool :=
  p.restricts collection && filter.any (p.namesOutside collection)

/-- Who is not restricted in a collection sees all of it. -/
theorem check_of_not_restricts {p : Permission} {collection : String}
    (h : p.restricts collection = false) (id : String) : p.check collection id = true := by
  cases p with
  | unrestricted => rfl
  | granted admin grants =>
    cases admin with
    | true => rfl
    | false =>
      have hall : grants.lookup collection = some .all := by simpa [restricts] using h
      simp [check, hall]

/-- Who is restricted in a collection sees the granted ids of it. -/
theorem check_of_restricts {p : Permission} {collection : String}
    (h : p.restricts collection = true) (id : String) :
    p.check collection id = (p.whitelist collection).contains id := by
  cases p with
  | unrestricted => simp [restricts] at h
  | granted admin grants =>
    cases admin with
    | true => simp [restricts] at h
    | false =>
      have hnot : grants.lookup collection ≠ some .all := by simpa [restricts] using h
      simp only [check, whitelist]
      cases hg : grants.lookup collection with
      | none => rfl
      | some grant =>
        cases grant with
        | all => exact absurd hg hnot
        | ids ids => rfl

/-! ## Conditions on the id -/

theorem equalTo_string (value : Value) (id : String) :
    value.equalTo (.string id) = match value.scalarText? with
      | some text => text == id
      | none => value.same (.string id) := by
  unfold Value.equalTo
  cases value.scalarText? <;> rfl

/-- A test that names granted ids only passes none but these. -/
theorem contains_of_holds {ids : List String} {test : Test} {values : List Value} {id : String}
    (hnamed : named? test = some values) (hgranted : ∀ value ∈ values, allows ids value = true)
    (h : test.holds (some (.string id)) = true) : ids.contains id = true := by
  -- a granted value is a scalar, and equals the id by its text
  have key : ∀ value ∈ values, value.equalTo (.string id) = true → ids.contains id = true := by
    intro value hv heq
    have hallowed := hgranted value hv
    unfold allows at hallowed
    rw [equalTo_string] at heq
    split at hallowed
    · next text htext =>
      rw [htext] at heq
      have : text = id := by simpa using heq
      rwa [← this]
    · simp at hallowed
  cases test with
  | equals value =>
    obtain rfl : [value] = values := by simpa [named?] using hnamed
    exact key value (by simp) (by simpa [Test.holds, Test.passes] using h)
  | isIn candidates =>
    obtain rfl : candidates = values := by simpa [named?] using hnamed
    obtain ⟨value, hv, heq⟩ : ∃ value ∈ candidates, value.equalTo (.string id) = true := by
      simpa [Test.holds, Test.passes] using h
    exact key value hv heq
  | glob pattern => simp [named?] at hnamed

/-- Being one of some ids, as a condition. -/
theorem holds_isIn_ids (ids : List String) (e : Entity) :
    Condition.holds ⟨idField, .isIn (ids.map .string)⟩ e = ids.contains e.id := by
  simp only [Condition.holds, Entity.get?_id, Test.holds, Test.passes, Option.getD_some,
    Bool.or_false]
  induction ids with
  | nil => rfl
  | cons id ids ih =>
    rw [List.map_cons, List.any_cons, ih, equalTo_string, List.contains_cons]
    show (id == e.id || _) = _
    rw [show (id == e.id) = (e.id == id) from Bool.beq_comm]

/-- A filter holds if both parts of it do, the conditions with and those without a property. -/
theorem holds_split (filter : Filter) (q : Condition → Bool) (e : Entity) :
    (Filter.holds (filter.filter fun c => !q c) e && Filter.holds (filter.filter q) e)
      = filter.holds e := by
  induction filter with
  | nil => rfl
  | cons c rest ih =>
    cases hq : q c with
    | true => simp [hq, ← ih, Bool.and_left_comm]
    | false => simp [hq, ← ih, Bool.and_assoc]

/-- Moving the conditions on one field to the end changes nothing. -/
theorem holds_takeField (filter : Filter) (field : String) (e : Entity) :
    Filter.holds ((filter.takeField field).2 ++ (filter.takeField field).1.map (⟨field, ·⟩)) e
      = filter.holds e := by
  have hback : (filter.takeField field).1.map (fun test => (⟨field, test⟩ : Condition))
      = filter.filter (·.field == field) := by
    rw [Filter.takeField, List.map_map]
    refine (List.map_congr_left fun c hc => ?_).trans (List.map_id _)
    have hfield : c.field = field := by simpa using (List.mem_filter.mp hc).2
    show (⟨field, c.test⟩ : Condition) = c
    rw [← hfield]
  rw [hback, Filter.holds_append]
  exact holds_split filter (·.field == field) e

/-! ## Narrowing -/

theorem firstDenied_eq_none_iff {ids : List String} {tests : List Test} :
    firstDenied ids tests = none ↔
      ∀ test ∈ tests, ∀ values, named? test = some values →
        ∀ value ∈ values, allows ids value = true := by
  rw [firstDenied, List.find?_eq_none]
  constructor
  · intro h test ht values hvalues value hv
    have := h value (List.mem_flatMap.mpr ⟨test, ht, by rw [hvalues]; exact hv⟩)
    simpa using this
  · intro h value hv
    obtain ⟨test, ht, hin⟩ := List.mem_flatMap.mp hv
    cases hnamed : named? test with
    | none => simp [hnamed] at hin
    | some values =>
      rw [hnamed] at hin
      simpa using h test ht values hnamed value hin

/-- Nothing outside is named exactly if no test of the id is denied. -/
theorem refuses_eq_false_iff {p : Permission} {collection : String} {filter : Filter}
    (h : p.restricts collection = true) :
    p.refuses collection filter = false ↔
      firstDenied (p.whitelist collection) (filter.takeField idField).1 = none := by
  rw [refuses, h, Bool.true_and, firstDenied_eq_none_iff]
  constructor
  · intro hnone test ht values hvalues value hv
    obtain ⟨c, hc, rfl⟩ := List.mem_map.mp ht
    obtain ⟨hmem, hfield⟩ := List.mem_filter.mp hc
    have := List.any_eq_false.mp hnone c hmem
    rw [namesOutside, hfield, hvalues, Bool.true_and] at this
    have hany : values.any (fun value => !allows (p.whitelist collection) value) = false := by
      simpa using this
    simpa using List.any_eq_false.mp hany value hv
  · intro hall
    refine List.any_eq_false.mpr fun c hmem => ?_
    rw [namesOutside]
    by_cases hfield : (c.field == idField) = true
    · rw [hfield, Bool.true_and]
      cases hnamed : named? c.test with
      | none => simp
      | some values =>
        have htest : c.test ∈ (filter.takeField idField).1 :=
          List.mem_map_of_mem (List.mem_filter.mpr ⟨hmem, hfield⟩)
        simpa using hall c.test htest values hnamed
    · simp [hfield]

/-- A refused search is an error that tells the collection. -/
theorem narrow_of_refuses {p : Permission} {collection : String} {filter : Filter}
    (h : p.refuses collection filter = true) :
    ∃ id, p.narrow collection filter = .error (.forbidden collection id) := by
  have hrestricts : p.restricts collection = true := by
    rw [refuses, Bool.and_eq_true] at h
    exact h.1
  cases hdenied : firstDenied (p.whitelist collection) (filter.takeField idField).1 with
  | none =>
    rw [(refuses_eq_false_iff hrestricts).mpr hdenied] at h
    simp at h
  | some value =>
    rw [narrow, if_pos hrestricts]
    simp only [hdenied]
    exact ⟨_, rfl⟩

/-- A search that is not refused is narrowed to what the caller may see. -/
theorem narrow_of_not_refuses {p : Permission} {collection : String} {filter : Filter}
    (h : p.refuses collection filter = false) :
    ∃ narrowed, p.narrow collection filter = .ok narrowed ∧
      ∀ e, narrowed.holds e = (filter.holds e && p.check collection e.id) := by
  by_cases hrestricts : p.restricts collection = true
  · have hdenied := (refuses_eq_false_iff hrestricts).mp h
    have hgranted := firstDenied_eq_none_iff.mp hdenied
    rw [narrow, if_pos hrestricts]
    simp only [hdenied]
    by_cases hnames : (filter.takeField idField).1.any (fun test => (named? test).isSome) = true
    · -- a test that names ids already keeps to the granted ones
      rw [if_pos hnames]
      refine ⟨_, rfl, fun e => ?_⟩
      rw [holds_takeField, check_of_restricts hrestricts]
      cases hholds : filter.holds e with
      | false => rfl
      | true =>
        obtain ⟨test, htest, hsome⟩ := List.any_eq_true.mp hnames
        obtain ⟨values, hvalues⟩ := Option.isSome_iff_exists.mp hsome
        obtain ⟨c, hc, rfl⟩ := List.mem_map.mp htest
        obtain ⟨hmem, hfield⟩ := List.mem_filter.mp hc
        have hpasses : c.test.holds (some (.string e.id)) = true := by
          have := List.all_eq_true.mp hholds c hmem
          rwa [Condition.holds, show c.field = idField by simpa using hfield,
            Entity.get?_id] at this
        rw [contains_of_holds hvalues (hgranted _ htest _ hvalues) hpasses]
        rfl
    · -- no test names ids, so the granted ones come in as one more condition
      rw [if_neg hnames]
      refine ⟨_, rfl, fun e => ?_⟩
      rw [Filter.holds_append, holds_takeField, check_of_restricts hrestricts, Filter.holds_cons,
        holds_isIn_ids, Filter.holds_nil, Bool.and_true]
  · have hfree : p.restricts collection = false := by simpa using hrestricts
    rw [narrow, if_neg hrestricts]
    refine ⟨_, rfl, fun e => ?_⟩
    rw [check_of_not_restricts hfree, Bool.and_true]

/-- A search fails to be narrowed only by being refused. -/
theorem forbidden_of_narrow {p : Permission} {collection : String} {filter : Filter}
    {error : QueryError} (h : p.narrow collection filter = .error error) :
    ∃ id, error = .forbidden collection id := by
  cases hrefuses : p.refuses collection filter with
  | true =>
    obtain ⟨id, hnarrow⟩ := narrow_of_refuses hrefuses
    rw [hnarrow] at h
    exact ⟨id, (Except.error.inj h).symm⟩
  | false =>
    obtain ⟨narrowed, hnarrow, -⟩ := narrow_of_not_refuses hrefuses
    rw [hnarrow] at h
    cases h

/-- What a narrowed filter lets through. -/
theorem holds_narrow {p : Permission} {collection : String} {filter narrowed : Filter}
    (h : p.narrow collection filter = .ok narrowed) (e : Entity) :
    narrowed.holds e = (filter.holds e && p.check collection e.id) := by
  cases hrefuses : p.refuses collection filter with
  | true =>
    obtain ⟨id, hid⟩ := narrow_of_refuses hrefuses
    rw [hid] at h
    simp at h
  | false =>
    obtain ⟨narrowed', hok, hholds⟩ := narrow_of_not_refuses hrefuses
    obtain rfl : narrowed' = narrowed := by simpa [hok] using h
    exact hholds e

end LinkedDocs.Permission
