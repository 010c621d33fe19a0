import LinkedDocs.Proofs.Json.Equality
import LinkedDocs.Proofs.Pass.Calls
import LinkedDocs.Proofs.Reading.Flattening
import LinkedDocs.Proofs.Store.Bookkeeping

/-!
# Reading stores that differ in their bookkeeping

Whatever a query names, be it in a filter, an order, a selector or a link, it gets what the store
lets out. So queries on alike stores have equal answers or fail with the same error:

> `one_alike`, `many_alike`: reading a document, or a page, on alike stores goes alike.

Values are equal here as they are for the engine, `Value.same`: the order of members is free, since
whole documents are answered with their fields in the order of the store.
-/

namespace LinkedDocs

namespace Value

theorem Same.array {vs ws : List Value} (h : List.Forall₂ Same vs ws) :
    Same (.array vs) (.array ws) := by
  rw [Same, same_iff, normal, normal, normalItems_eq_map, normalItems_eq_map]
  exact congrArg Value.array (forall₂_map_eq (fun v w => (same_iff v w).mp) h)

end Value

open Value (Same SameFields)

/-! ## Answers -/

namespace Answer

/-- Writing all fields of a document writes each of them. -/
theorem get?_writeFields (start : String) (out : Fields) (e : Entity) (key : String) :
    (writeFields start out e).get? key
      = ((e.fields.prefixed start).get? key).or (out.get? key) := by
  have hwrite : writeFields start out e
      = (e.fields.prefixed start).entries.foldl (fun out pair => out.set pair.1 pair.2) out := by
    rw [Dict.prefixed, List.foldl_map]
    rfl
  rw [hwrite, Memory.get?_foldl_set_of_nodup (e.fields.prefixed start).nodup]
  rfl

theorem get?_prefixed_alike {a b : Entity} (h : a.Alike b) (start key : String) :
    (a.fields.prefixed start).get? key = (b.fields.prefixed start).get? key := by
  by_cases hkey : ∃ name, key = start ++ name
  · obtain ⟨name, rfl⟩ := hkey
    rw [Dict.get?_prefixed, Dict.get?_prefixed]
    exact h name
  · have hnone : ∀ name, key ≠ start ++ name := fun name heq => hkey ⟨name, heq⟩
    rw [Dict.get?_prefixed_eq_none hnone, Dict.get?_prefixed_eq_none hnone]

/-- Of one field at most, the order does not matter. -/
theorem members_alike {f g : Fields} (h : SameFields f g) (hf : f.size ≤ 1) (hg : g.size ≤ 1) :
    List.Forall₂ (MemberAlike Same) f.entries g.entries := by
  unfold SameFields Dict.get? at h
  unfold Dict.size at hf hg
  generalize f.entries = entries at h hf ⊢
  generalize g.entries = entries' at h hg ⊢
  match entries, entries', hf, hg with
  | [], [], _, _ => exact .nil
  | [], (key, w) :: _, _, _ =>
    have hkey := h key
    rw [List.lookup_nil, List.lookup_cons_self] at hkey
    cases hkey
  | (key, v) :: _, [], _, _ =>
    have hkey := h key
    rw [List.lookup_nil, List.lookup_cons_self] at hkey
    cases hkey
  | [(key, v)], [(key', w)], _, _ =>
    have hkey := h key
    rw [List.lookup_cons_self, Dict.lookup_cons] at hkey
    by_cases hsame : key' = key
    · rw [if_pos hsame] at hkey
      cases hkey with
      | some hvw => exact .cons ⟨hsame.symm, hvw⟩ .nil
    · rw [if_neg hsame] at hkey
      cases hkey

/-- Of alike entities equal answers are written. -/
theorem renders_same : Renders Entity.Alike Same SameFields where
  alike _ _ h := h
  whole a b h := by
    refine SameFields.same fun name => ?_
    rw [show a.fields.get? name = b.fields.get? name from h name]
    exact optionRel_refl Value.same_refl _
  refl := Value.same_refl
  isNull _ _ h := h.isNull
  array _ _ h := .array h
  object _ _ h := h.same
  empty _ := .none
  set f g h key v w hvw := by
    intro name
    rw [Dict.get?_set, Dict.get?_set]
    split
    · exact .some hvw
    · exact h name
  all a b hab f g h start := by
    intro key
    rw [get?_writeFields, get?_writeFields, get?_prefixed_alike hab]
    cases (b.fields.prefixed start).get? key with
    | some value => exact .some (Value.same_refl value)
    | none => exact h key
  entries _ _ h hf hg := members_alike h hf hg

/-- After passes that went alike, alike entities have equal answers. -/
theorem ofEntity_same {memo memo' : Memo} (h : Memo.Tracks id Entity.Alike memo memo') (plan : Plan)
    (select : Option Selector) {a b : Entity} (hab : a.Alike b) :
    Same (ofEntity memo plan select a) (ofEntity memo' plan select b) := by
  have hnodes : ∀ n ∈ plan.idsBelow, (fun _ => True) n := fun _ _ => trivial
  have hanswer := ofEntity_alike renders_same h.shows hnodes select hab
  rwa [Plan.renumber_id] at hanswer

end Answer

/-! ## Queries -/

namespace Memory

variable {m m' : Memory}

theorem Alike.replies (h : m.Alike m') : RepliesAlike Entity.Alike m.reply m'.reply where
  get collection id projection := (h.answer (.get collection id projection)).1
  find collection filter projection := (h.answer (.find collection filter projection)).1

/-- Reads leave alike stores alike. -/
theorem Alike.run {α : Type} (h : m.Alike m') {d : Dialogue α} (reads : d.OnlyAsks Call.isRead) :
    (d.run Memory.answer m).2.Alike (d.run Memory.answer m').2 := by
  obtain ⟨hcollections, hoffline⟩ := (m.run_eq_eval reads).2
  obtain ⟨hcollections', hoffline'⟩ := (m'.run_eq_eval reads).2
  refine ⟨by rw [hoffline, hoffline', h.offline], fun collection => ?_⟩
  rw [hcollections, hcollections']
  exact h.collections collection

end Memory

namespace Query

open Pass (simulates_resolveOne simulates_resolveMany simulates_expand)

variable {m m' : Memory}

/-- Reading a document of alike stores goes alike. -/
theorem one_alike (h : m.Alike m') (p : Permission) (collection id : String) (request : Request) :
    EndsAlike (Option.Rel Same) ((one p collection id request).run Memory.answer m).1
      ((one p collection id request).run Memory.answer m').1 := by
  rw [(m.run_eq_eval (reads_one p collection id request)).1,
    (m'.run_eq_eval (reads_one p collection id request)).1]
  cases hplan : Plan.build collection request.select .unrestricted with
  | error error =>
    rw [one, hplan]
    exact .error error
  | ok plan =>
    obtain ⟨hends, htracks, -⟩ := simulates_resolveOne Function.injective_id h.replies p plan
      (simulates_expand Function.injective_id (fun _ _ hab => hab) h.replies p plan) id .empty
      .empty Memo.tracks_empty
    rw [Plan.renumber_id] at hends htracks
    rw [eval_one hplan, eval_one hplan]
    refine hends.map fun found found' hfound => ?_
    cases hfound with
    | none => exact .none
    | some hab => exact .some (Answer.ofEntity_same htracks plan request.select hab)

/-- So does reading a page. -/
theorem many_alike (h : m.Alike m') (p : Permission) (collection : String) (request : Request) :
    EndsAlike (List.Forall₂ Same) ((many p collection request).run Memory.answer m).1
      ((many p collection request).run Memory.answer m').1 := by
  rw [(m.run_eq_eval (reads_many p collection request)).1,
    (m'.run_eq_eval (reads_many p collection request)).1]
  cases hplan : Plan.build collection request.select request.scope with
  | error error =>
    rw [many, hplan]
    exact .error error
  | ok plan =>
    obtain ⟨hends, htracks, -⟩ := simulates_resolveMany Function.injective_id (fun _ _ hab => hab)
      h.replies p plan
      (simulates_expand Function.injective_id (fun _ _ hab => hab) h.replies p plan) none []
      .empty .empty Memo.tracks_empty
    rw [Plan.renumber_id] at hends htracks
    rw [eval_many hplan, eval_many hplan]
    refine hends.map fun page page' hpage => ?_
    rw [List.forall₂_map_left_iff, List.forall₂_map_right_iff]
    exact hpage.imp fun a b hab => Answer.ofEntity_same htracks plan request.select hab

end Query

end LinkedDocs
