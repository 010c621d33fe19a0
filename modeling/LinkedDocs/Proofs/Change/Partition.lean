import LinkedDocs.Change
import Mathlib.Data.List.Nodup
import Mathlib.Tactic.ByContra
import Mathlib.Tactic.Tauto

/-!
# What two versions of a collection have in common

Comparing two versions of a collection sorts their ids: those of the new version only, those of both
whose documents differ, those of the old version only; the rest is left out. If ids are distinct,
each goes to one place (`partitions_between`), and of the old version its order matters to the order
of the ids that are gone only (`between_perm`).
-/

namespace LinkedDocs

namespace CollectionChange

/-- The ids of the documents that have changed. -/
def ids (c : CollectionChange) : List String := c.created ++ c.updated.map Prod.fst ++ c.deleted

/-- Every id of two versions of a collection is where it belongs, once and in order. -/
structure Partitions (c : CollectionChange) (old new : List Entity) (collections : List String) :
    Prop where
  /-- Created are the ids of the new version only. -/
  created_iff (id : String) : id ∈ c.created ↔ id ∈ new.map Entity.id ∧ id ∉ old.map Entity.id
  /-- Updated are the ids of both versions between whose documents something is named. -/
  updated_iff (id : String) (change : Change) : (id, change) ∈ c.updated ↔
    change.isEmpty = false ∧ ∃ before ∈ old, ∃ after ∈ new, before.id = id ∧ after.id = id ∧
      change = Change.between before.fields after.fields collections
  /-- Deleted are the ids of the old version only. -/
  deleted_iff (id : String) : id ∈ c.deleted ↔ id ∈ old.map Entity.id ∧ id ∉ new.map Entity.id
  /-- Left out are the ids of both versions between whose documents nothing is named. -/
  left_out_iff (id : String) : id ∈ old.map Entity.id ++ new.map Entity.id ∧ id ∉ c.ids ↔
    ∃ before ∈ old, ∃ after ∈ new, before.id = id ∧ after.id = id ∧
      (Change.between before.fields after.fields collections).isEmpty = true
  created_order : c.created.Sublist (new.map Entity.id)
  updated_order : (c.updated.map Prod.fst).Sublist (new.map Entity.id)
  deleted_order : c.deleted.Sublist (old.map Entity.id)
  /-- No id is in two places. -/
  once : c.ids.Nodup

variable {old old' new : List Entity} {collections : List String} {before after e : Entity}
  {id : String} {change : Change}

theorem length_ids (c : CollectionChange) : c.ids.length = c.size := by
  simp [ids, size, Nat.add_assoc]

/-- Where ids are distinct, the last entity with an id is the one that has it. -/
theorem lastWithId_of_mem (distinct : (old.map Entity.id).Nodup) (hbefore : before ∈ old) :
    lastWithId before.id old = some before := by
  cases hfound : lastWithId before.id old with
  | none =>
    have hnone := List.find?_eq_none.mp hfound before (List.mem_reverse.mpr hbefore)
    simp at hnone
  | some found =>
    obtain ⟨hmem, hid⟩ := lastWithId_eq_some hfound
    rw [List.inj_on_of_nodup_map distinct hmem hbefore hid]

theorem lastWithId_eq_none_iff : lastWithId id old = none ↔ id ∉ old.map Entity.id := by
  simp [lastWithId]

/-- Where ids are distinct, the order does not matter to which entity has an id. -/
theorem lastWithId_perm (distinct : (old.map Entity.id).Nodup) (perm : old.Perm old') :
    lastWithId id old' = lastWithId id old := by
  have distinct' : (old'.map Entity.id).Nodup := (perm.map Entity.id).nodup_iff.mp distinct
  cases hfound : lastWithId id old with
  | none =>
    rw [lastWithId_eq_none_iff] at hfound ⊢
    intro hid
    exact hfound ((perm.map Entity.id).mem_iff.mpr hid)
  | some before =>
    obtain ⟨hmem, rfl⟩ := lastWithId_eq_some hfound
    exact lastWithId_of_mem distinct' (perm.mem_iff.mp hmem)

/-- An entity is updated if the old version has one with its id and something is named between the
two. -/
theorem update?_eq_some_iff (distinct : (old.map Entity.id).Nodup) :
    update? old collections e = some (id, change) ↔
      e.id = id ∧ change.isEmpty = false ∧ ∃ before ∈ old, before.id = id ∧
        change = Change.between before.fields e.fields collections := by
  constructor
  · exact update?_eq_some
  · intro h
    obtain ⟨hid, hsome, before, hbefore, hbeforeId, hchange⟩ := h
    have hfound : lastWithId e.id old = some before := by
      rw [hid, ← hbeforeId]
      exact lastWithId_of_mem distinct hbefore
    rw [update?, hfound, Option.bind_some, ← hchange, hid]
    simp [hsome]

theorem mem_updated_iff (distinct : (old.map Entity.id).Nodup) :
    (id, change) ∈ (between old new collections).updated ↔
      change.isEmpty = false ∧ ∃ before ∈ old, ∃ after ∈ new, before.id = id ∧ after.id = id ∧
        change = Change.between before.fields after.fields collections := by
  show (id, change) ∈ new.filterMap (update? old collections) ↔ _
  rw [List.mem_filterMap]
  constructor
  · intro h
    obtain ⟨after, hafter, hupdate⟩ := h
    obtain ⟨hid, hsome, before, hbefore, hbeforeId, hchange⟩ := update?_eq_some hupdate
    exact ⟨hsome, before, hbefore, after, hafter, hbeforeId, hid, hchange⟩
  · intro h
    obtain ⟨hsome, before, hbefore, after, hafter, hbeforeId, hid, hchange⟩ := h
    exact ⟨after, hafter,
      (update?_eq_some_iff distinct).mpr ⟨hid, hsome, before, hbefore, hbeforeId, hchange⟩⟩

/-- The ids that are updated are some of the new version, in its order. -/
theorem ids_updated_sublist :
    ((between old new collections).updated.map Prod.fst).Sublist (new.map Entity.id) := by
  show ((new.filterMap (update? old collections)).map Prod.fst).Sublist _
  induction new with
  | nil => exact .slnil
  | cons e rest ih =>
    cases hupdate : update? old collections e with
    | none =>
      rw [List.filterMap_cons_none hupdate]
      exact ih.cons _
    | some updated =>
      rw [List.filterMap_cons_some hupdate, List.map_cons, List.map_cons,
        ← (update?_eq_some hupdate).1]
      exact ih.cons_cons _

theorem mem_ids_updated_iff (distinct : (old.map Entity.id).Nodup) :
    id ∈ (between old new collections).updated.map Prod.fst ↔
      ∃ before ∈ old, ∃ after ∈ new, before.id = id ∧ after.id = id ∧
        (Change.between before.fields after.fields collections).isEmpty = false := by
  constructor
  · intro h
    obtain ⟨⟨_, change⟩, hmem, rfl⟩ := List.mem_map.mp h
    obtain ⟨hsome, before, hbefore, after, hafter, hbeforeId, hid, rfl⟩ :=
      (mem_updated_iff distinct).mp hmem
    exact ⟨before, hbefore, after, hafter, hbeforeId, hid, hsome⟩
  · intro h
    obtain ⟨before, hbefore, after, hafter, hbeforeId, hid, hsome⟩ := h
    exact List.mem_map_of_mem (f := Prod.fst) ((mem_updated_iff distinct).mpr
      ⟨hsome, before, hbefore, after, hafter, hbeforeId, hid, rfl⟩)

/-- What is left out is in both versions and has not changed. -/
theorem left_out_iff (old_nodup : (old.map Entity.id).Nodup)
    (new_nodup : (new.map Entity.id).Nodup) :
    id ∈ old.map Entity.id ++ new.map Entity.id ∧ id ∉ (between old new collections).ids ↔
      ∃ before ∈ old, ∃ after ∈ new, before.id = id ∧ after.id = id ∧
        (Change.between before.fields after.fields collections).isEmpty = true := by
  simp only [ids, List.mem_append, not_or]
  rw [mem_created_iff, mem_deleted_iff, mem_ids_updated_iff old_nodup]
  constructor
  · intro h
    obtain ⟨hthere, ⟨hcreated, hupdated⟩, hdeleted⟩ := h
    obtain ⟨hold, hnew⟩ : id ∈ old.map Entity.id ∧ id ∈ new.map Entity.id := by tauto
    obtain ⟨before, hbefore, hbeforeId⟩ := List.mem_map.mp hold
    obtain ⟨after, hafter, hid⟩ := List.mem_map.mp hnew
    refine ⟨before, hbefore, after, hafter, hbeforeId, hid, ?_⟩
    by_contra hsome
    exact hupdated ⟨before, hbefore, after, hafter, hbeforeId, hid, Bool.eq_false_iff.mpr hsome⟩
  · intro h
    obtain ⟨before, hbefore, after, hafter, hbeforeId, hid, hempty⟩ := h
    have hold : id ∈ old.map Entity.id := hbeforeId ▸ List.mem_map_of_mem hbefore
    have hnew : id ∈ new.map Entity.id := hid ▸ List.mem_map_of_mem hafter
    refine ⟨.inl hold, ⟨fun hcreated => hcreated.2 hold, ?_⟩, fun hdeleted => hdeleted.2 hnew⟩
    intro hupdated
    obtain ⟨before', hbefore', after', hafter', hbeforeId', hid', hsome⟩ := hupdated
    -- ids are distinct, so the two documents are the same
    rw [List.inj_on_of_nodup_map old_nodup hbefore' hbefore (hbeforeId'.trans hbeforeId.symm),
      List.inj_on_of_nodup_map new_nodup hafter' hafter (hid'.trans hid.symm), hempty] at hsome
    cases hsome

theorem nodup_ids (old_nodup : (old.map Entity.id).Nodup) (new_nodup : (new.map Entity.id).Nodup) :
    (between old new collections).ids.Nodup := by
  have hupdated : ∀ id ∈ (between old new collections).updated.map Prod.fst,
      id ∈ old.map Entity.id ∧ id ∈ new.map Entity.id := by
    intro id hid
    obtain ⟨before, hbefore, after, hafter, rfl, hafterId, -⟩ :=
      (mem_ids_updated_iff old_nodup).mp hid
    exact ⟨List.mem_map_of_mem hbefore, hafterId ▸ List.mem_map_of_mem hafter⟩
  refine List.nodup_append'.mpr ⟨List.nodup_append'.mpr ⟨?_, ?_, ?_⟩, ?_, ?_⟩
  · exact new_nodup.filter _
  · exact ids_updated_sublist.nodup new_nodup
  · intro id hcreated hid
    exact (mem_created_iff.mp hcreated).2 (hupdated id hid).1
  · exact old_nodup.filter _
  · intro id hid hdeleted
    rcases List.mem_append.mp hid with hcreated | hid
    · exact (mem_deleted_iff.mp hdeleted).2 (mem_created_iff.mp hcreated).1
    · exact (mem_deleted_iff.mp hdeleted).2 (hupdated id hid).2

/-- Where ids are distinct, comparing puts each where it belongs. -/
theorem partitions_between (old_nodup : (old.map Entity.id).Nodup)
    (new_nodup : (new.map Entity.id).Nodup) :
    (between old new collections).Partitions old new collections where
  created_iff _ := mem_created_iff
  updated_iff _ _ := mem_updated_iff old_nodup
  deleted_iff _ := mem_deleted_iff
  left_out_iff _ := left_out_iff old_nodup new_nodup
  created_order := List.filter_sublist
  updated_order := ids_updated_sublist
  deleted_order := List.filter_sublist
  once := nodup_ids old_nodup new_nodup

/-- The order of the old version matters to the order of what is deleted only. -/
theorem between_perm (distinct : (old.map Entity.id).Nodup) (perm : old.Perm old') :
    (between old' new collections).created = (between old new collections).created ∧
      (between old' new collections).updated = (between old new collections).updated ∧
      (between old' new collections).deleted.Perm (between old new collections).deleted := by
  have hids : (old'.map Entity.id).Perm (old.map Entity.id) := perm.symm.map Entity.id
  refine ⟨?_, ?_, hids.filter _⟩
  · refine List.filter_congr ?_
    intro id _
    rw [hids.contains_eq]
  · refine List.filterMap_congr ?_
    intro e _
    rw [update?, update?, lastWithId_perm distinct perm]

end CollectionChange

end LinkedDocs
