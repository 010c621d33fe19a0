import LinkedDocs.Dict
import Mathlib.Data.List.Nodup

/-!
# The entries of maps after writes

What is written to a map that has the name keeps its place, and what it does not have comes last;
`entries_foldl_set` says so for several names at once. Of the two ways to take a name out, erasing
keeps the order and swapping moves the last entry.
-/

namespace LinkedDocs

namespace Dict

variable {α : Type} {name : String} {value : α} {entries : List (String × α)}

/-! ## Writing -/

/-- The pair with the value that one of some pairs gives its name, or with its own. -/
def newer (pairs : List (String × α)) (pair : String × α) : String × α :=
  (pair.1, (pairs.lookup pair.1).getD pair.2)

theorem newer_of_not_mem {pairs : List (String × α)} {pair : String × α}
    (h : pair.1 ∉ pairs.map Prod.fst) : newer pairs pair = pair := by
  rw [newer, (lookup_eq_none_iff pair.1 pairs).mpr h]
  rfl

/-- Of two writes one after the other, to different names, each counts. -/
theorem newer_newer {pairs : List (String × α)} (h : name ∉ pairs.map Prod.fst)
    (pair : String × α) :
    newer pairs (newer [(name, value)] pair) = newer ((name, value) :: pairs) pair := by
  by_cases hname : name = pair.1
  · subst hname
    have hlater : pairs.lookup pair.1 = none := (lookup_eq_none_iff pair.1 pairs).mpr h
    simp [newer, hlater]
  · simp [newer, lookup_cons, hname]

theorem put_of_mem (nodup : (entries.map Prod.fst).Nodup) (h : name ∈ entries.map Prod.fst) :
    put name value entries = entries.map (newer [(name, value)]) := by
  induction entries with
  | nil => cases h
  | cons pair rest ih =>
    obtain ⟨key, old⟩ := pair
    obtain ⟨hkey, hrest⟩ : key ∉ rest.map Prod.fst ∧ (rest.map Prod.fst).Nodup := by
      simpa using nodup
    rw [List.map_cons, put]
    by_cases hname : key = name
    · subst hname
      -- the name is not in the rest, which stays
      have hstay : ∀ pair ∈ rest, newer [(key, value)] pair = pair := by
        intro pair hpair
        refine newer_of_not_mem ?_
        intro hmem
        obtain rfl : pair.1 = key := by simpa using hmem
        exact hkey (List.mem_map_of_mem hpair)
      rw [if_pos rfl, List.map_congr_left hstay, List.map_id']
      simp [newer]
    · have hmem : name ∈ rest.map Prod.fst := by
        rcases List.mem_cons.mp h with heq | hmem
        · exact absurd heq.symm hname
        · exact hmem
      have hold : newer [(name, value)] (key, old) = (key, old) :=
        newer_of_not_mem (by simpa using hname)
      rw [if_neg hname, ih hrest hmem, hold]

theorem put_of_not_mem (h : name ∉ entries.map Prod.fst) :
    put name value entries = entries ++ [(name, value)] := by
  induction entries with
  | nil => rfl
  | cons pair rest ih =>
    obtain ⟨key, old⟩ := pair
    obtain ⟨hkey, hrest⟩ : name ≠ key ∧ name ∉ rest.map Prod.fst := by simpa using h
    rw [put, if_neg (Ne.symm hkey), ih hrest, List.cons_append]

/-- A name that is there gets its value in place. -/
theorem entries_set_of_mem {d : Dict α} (h : name ∈ d.keys) :
    (d.set name value).entries = d.entries.map (newer [(name, value)]) := put_of_mem d.nodup h

/-- A name that is not there comes last. -/
theorem entries_set_of_not_mem {d : Dict α} (h : name ∉ d.keys) :
    (d.set name value).entries = d.entries ++ [(name, value)] := put_of_not_mem h

/-- Writing pairs with distinct names gives the names that are there new values, in place, and puts
the others at the end. -/
theorem entries_foldl_set {pairs : List (String × α)} (h : (pairs.map Prod.fst).Nodup)
    (d : Dict α) :
    (pairs.foldl (fun d pair => d.set pair.1 pair.2) d).entries
      = d.entries.map (newer pairs) ++ pairs.filter fun pair => !d.contains pair.1 := by
  induction pairs generalizing d with
  | nil =>
    have hstay : ∀ pair ∈ d.entries, newer [] pair = pair := fun _ _ => newer_of_not_mem (by simp)
    rw [List.map_congr_left hstay]
    simp
  | cons pair rest ih =>
    obtain ⟨name, value⟩ := pair
    obtain ⟨hname, hrest⟩ : name ∉ rest.map Prod.fst ∧ (rest.map Prod.fst).Nodup := by simpa using h
    -- the names that are still to come are there after the write if they were before
    have hlater : rest.filter (fun pair => !(d.set name value).contains pair.1)
        = rest.filter fun pair => !d.contains pair.1 := by
      refine List.filter_congr ?_
      intro pair hpair
      have hne : pair.1 ≠ name := by
        rintro rfl
        exact hname (List.mem_map_of_mem hpair)
      rw [contains, get?_set_of_ne d value hne, contains]
    rw [List.foldl_cons, ih hrest, hlater]
    by_cases hthere : name ∈ d.keys
    · have hcontains : d.contains name = true := by
        rw [contains, Option.isSome_iff_ne_none, Ne, get?_eq_none_iff]
        exact not_not_intro hthere
      rw [entries_set_of_mem hthere, List.map_map, List.filter_cons_of_neg (by simp [hcontains])]
      exact congrArg (· ++ _) (List.map_congr_left fun pair _ => newer_newer hname pair)
    · have hcontains : d.contains name = false := by
        rw [contains, (get?_eq_none_iff d name).mpr hthere]
        rfl
      have hstay : ∀ pair ∈ d.entries, newer rest pair = newer ((name, value) :: rest) pair := by
        intro pair hpair
        have hne : pair.1 ≠ name := by
          rintro rfl
          exact hthere (List.mem_map_of_mem hpair)
        have hfirst : newer [(name, value)] pair = pair := newer_of_not_mem (by simpa using hne)
        rw [← newer_newer hname, hfirst]
      rw [entries_set_of_not_mem hthere, List.map_append, List.map_congr_left hstay,
        List.filter_cons_of_pos (by simp [hcontains]), List.map_cons,
        newer_of_not_mem hname, List.append_assoc]
      rfl

/-- Pairs with distinct names are the entries of the map that they make. -/
theorem entries_ofList {pairs : List (String × α)} (h : (pairs.map Prod.fst).Nodup) :
    (ofList pairs).entries = pairs := by
  have hnew : ∀ pair ∈ pairs, (!(empty : Dict α).contains pair.1) = true := fun _ _ => rfl
  rw [ofList, entries_foldl_set h, List.filter_eq_self.mpr hnew]
  rfl

/-! ## Taking out -/

theorem entries_foldl_erase (names : List String) (d : Dict α) :
    (names.foldl erase d).entries = d.entries.filter fun pair => !names.contains pair.1 := by
  induction names generalizing d with
  | nil => simp
  | cons name rest ih =>
    rw [List.foldl_cons, ih, entries_erase, List.filter_filter]
    refine List.filter_congr ?_
    intro pair _
    by_cases hname : pair.1 = name
    · simp [hname]
    · simp [hname]

theorem swapOut_of_not_mem (h : name ∉ entries.map Prod.fst) : swapOut name entries = entries := by
  induction entries with
  | nil => rfl
  | cons pair rest ih =>
    obtain ⟨key, old⟩ := pair
    obtain ⟨hkey, hrest⟩ : name ≠ key ∧ name ∉ rest.map Prod.fst := by simpa using h
    rw [swapOut, if_neg (Ne.symm hkey), ih hrest]

/-- What is in front of a name stays when it is swapped out. -/
theorem swapOut_append {front : List (String × α)} (h : name ∉ front.map Prod.fst)
    (rest : List (String × α)) : swapOut name (front ++ rest) = front ++ swapOut name rest := by
  induction front with
  | nil => rfl
  | cons pair front ih =>
    obtain ⟨key, old⟩ := pair
    obtain ⟨hkey, hfront⟩ : name ≠ key ∧ name ∉ front.map Prod.fst := by simpa using h
    rw [List.cons_append, swapOut, if_neg (Ne.symm hkey), ih hfront, List.cons_append]

/-- The last pair moves to the place of the one that is swapped out. -/
theorem swapOut_cons_concat (between : List (String × α)) (last : String × α) :
    swapOut name ((name, value) :: (between ++ [last])) = last :: between := by
  simp [swapOut]

/-- Swapping a name out leaves what is in front of it. -/
theorem entries_swapErase {d : Dict α} {front rest : List (String × α)}
    (h : d.entries = front ++ (name, value) :: rest) :
    (d.swapErase name).entries = front ++ swapOut name ((name, value) :: rest) := by
  have hfront : name ∉ front.map Prod.fst := by
    have hnodup := d.nodup
    rw [h, List.map_append, List.map_cons, List.nodup_middle] at hnodup
    intro hmem
    exact (List.nodup_cons.mp hnodup).1 (List.mem_append_left _ hmem)
  show swapOut name d.entries = _
  rw [h, swapOut_append hfront]

end Dict

end LinkedDocs
