import LinkedDocs.Pass
import Mathlib.Data.List.Forall2

/-!
# Entities with the same fields

Two entities are `Alike` if every field has the same value in both; only the order of their fields
may differ. No filter, no order and no link can tell such entities apart. Computations are compared
by their ends: `EndsAlike R` says that both succeed, with results that `R` relates, or both fail
with the same error.
-/

namespace LinkedDocs

/-! ## Ends -/

/-- Both succeed, with related results, or both fail with the same error. -/
inductive EndsAlike {ε α β : Type} (R : α → β → Prop) : Except ε α → Except ε β → Prop where
  | ok {a : α} {b : β} (h : R a b) : EndsAlike R (.ok a) (.ok b)
  | error (error : ε) : EndsAlike R (.error error) (.error error)

namespace EndsAlike

variable {ε δ α β α' β' : Type} {R : α → β → Prop} {S : α' → β' → Prop}

theorem mono {T : α → β → Prop} {x : Except ε α} {y : Except ε β} (h : EndsAlike R x y)
    (himp : ∀ a b, R a b → T a b) : EndsAlike T x y := by
  cases h with
  | ok h => exact .ok (himp _ _ h)
  | error error => exact .error error

/-- Equal ends are ends with equal results. -/
theorem eq_iff {x y : Except ε α} : EndsAlike Eq x y ↔ x = y := by
  constructor
  · rintro (rfl | error) <;> rfl
  · rintro rfl
    cases x with
    | ok a => exact .ok rfl
    | error error => exact .error error

theorem bind {x : Except ε α} {y : Except ε β} {f : α → Except ε α'} {g : β → Except ε β'}
    (h : EndsAlike R x y) (hfg : ∀ a b, R a b → EndsAlike S (f a) (g b)) :
    EndsAlike S (x >>= f) (y >>= g) := by
  cases h with
  | ok h => exact hfg _ _ h
  | error error => exact .error error

theorem map {x : Except ε α} {y : Except ε β} {f : α → α'} {g : β → β'} (h : EndsAlike R x y)
    (hfg : ∀ a b, R a b → S (f a) (g b)) : EndsAlike S (x.map f) (y.map g) := by
  cases h with
  | ok h => exact .ok (hfg _ _ h)
  | error error => exact .error error

theorem mapError {x : Except ε α} {y : Except ε β} (h : EndsAlike R x y) (f : ε → δ) :
    EndsAlike R (x.mapError f) (y.mapError f) := by
  cases h with
  | ok h => exact .ok h
  | error error => exact .error (f error)

end EndsAlike

/-! ## Lists side by side -/

section Lists

variable {α β γ : Type} {R : α → β → Prop} {as : List α} {bs : List β}

theorem forall₂_map_eq {f : α → γ} {g : β → γ} (hfg : ∀ a b, R a b → f a = g b)
    (h : List.Forall₂ R as bs) : as.map f = bs.map g := by
  rw [← List.forall₂_eq_eq_eq, List.forall₂_map_left_iff, List.forall₂_map_right_iff]
  exact h.imp hfg

theorem forall₂_filterMap_eq {f : α → Option γ} {g : β → Option γ}
    (hfg : ∀ a b, R a b → f a = g b) (h : List.Forall₂ R as bs) :
    as.filterMap f = bs.filterMap g := by
  have hsame : (as.map f).filterMap id = (bs.map g).filterMap id := by rw [forall₂_map_eq hfg h]
  rwa [List.filterMap_map, List.filterMap_map, Function.id_comp, Function.id_comp] at hsame

theorem forall₂_any_eq {p : α → Bool} {q : β → Bool} (hpq : ∀ a b, R a b → p a = q b)
    (h : List.Forall₂ R as bs) : as.any p = bs.any q := by
  have hsame : (as.map p).any id = (bs.map q).any id := by rw [forall₂_map_eq hpq h]
  rwa [List.any_map, List.any_map, Function.id_comp, Function.id_comp] at hsame

/-- The first ones of which the same is said are related. -/
theorem forall₂_find? {p : α → Bool} {q : β → Bool} (hpq : ∀ a b, R a b → p a = q b)
    (h : List.Forall₂ R as bs) : Option.Rel R (as.find? p) (bs.find? q) := by
  induction h with
  | nil => exact .none
  | @cons a b _ _ hab _ ih =>
    rw [List.find?_cons, List.find?_cons, hpq a b hab]
    cases q b with
    | true => exact .some hab
    | false => exact ih

end Lists

/-! ## Entities -/

namespace Entity

/-- Every field has the same value in both. -/
def Alike (a b : Entity) : Prop := ∀ field, a.get? field = b.get? field

namespace Alike

variable {a b : Entity}

theorem refl (e : Entity) : e.Alike e := fun _ => rfl

theorem of_eq (a b : Entity) (h : a = b) : a.Alike b := h ▸ refl a

theorem id (h : a.Alike b) : a.id = b.id := by
  have hid := h idField
  rw [get?_id, get?_id] at hid
  exact Value.string.inj (Option.some.inj hid)

theorem link (h : a.Alike b) (target : String) : a.link target = b.link target := by
  rw [Entity.link, Entity.link, h target]

theorem linkFilter? (h : a.Alike b) (collection target : String) :
    Pass.linkFilter? collection a target = Pass.linkFilter? collection b target := by
  rw [Pass.linkFilter?, Pass.linkFilter?, h.link, h.id]

theorem holds (h : a.Alike b) (filter : Filter) : filter.holds a = filter.holds b := by
  induction filter with
  | nil => rfl
  | cons condition filter ih =>
    rw [Filter.holds_cons, Filter.holds_cons, ih, Condition.holds, Condition.holds, h]

end Alike

end Entity

variable {a a' b b' : Entity} {E : Entity → Entity → Prop}

/-- Comparing looks only at the fields that are sorted by. -/
theorem Order.compareAll_congr {order : Order}
    (ha : ∀ key ∈ order, a.get? key.field = a'.get? key.field)
    (hb : ∀ key ∈ order, b.get? key.field = b'.get? key.field) :
    compareAll order a b = compareAll order a' b' := by
  induction order with
  | nil => rfl
  | cons key keys ih =>
    obtain ⟨hfirst, hrest⟩ := List.forall_mem_cons.mp ha
    obtain ⟨hfirst', hrest'⟩ := List.forall_mem_cons.mp hb
    rw [compareAll, compareAll, compareBy, compareBy, hfirst, hfirst', ih hrest hrest']

/-- Lists of related entities stay so when they are sorted, if related ones have the same values to
be sorted by: each list is one side of a list of pairs, and the pairs can be sorted by either side.
-/
theorem Order.sort_forall₂ {order : Order}
    (hE : ∀ a b, E a b → ∀ key ∈ order, a.get? key.field = b.get? key.field) {as bs : List Entity}
    (h : List.Forall₂ E as bs) : List.Forall₂ E (order.sort as) (order.sort bs) := by
  obtain ⟨hlength, hpairs⟩ := List.forall₂_iff_zip.mp h
  let pairs := as.zip bs
  have hleft : pairs.map Prod.fst = as := List.map_fst_zip (Nat.le_of_eq hlength)
  have hright : pairs.map Prod.snd = bs := List.map_snd_zip (Nat.le_of_eq hlength.symm)
  let sorted := pairs.mergeSort fun x y => compareAll order x.1 y.1 != .gt
  have hsame : ∀ x ∈ pairs, E x.1 x.2 := fun x hx => hpairs hx
  have hfst : order.sort as = sorted.map Prod.fst := by
    rw [← hleft]
    refine (List.map_mergeSort fun x _ y _ => ?_).symm
    rfl
  have hsnd : order.sort bs = sorted.map Prod.snd := by
    rw [← hright]
    refine (List.map_mergeSort fun x hx y hy => ?_).symm
    rw [compareAll_congr (hE _ _ (hsame x hx)) (hE _ _ (hsame y hy))]
  rw [hfst, hsnd, List.forall₂_map_left_iff, List.forall₂_map_right_iff, List.forall₂_same]
  exact fun x hx => hsame x (List.mem_mergeSort.mp hx)

theorem Order.sort_alike (hE : ∀ a b, E a b → a.Alike b) (order : Order) {as bs : List Entity}
    (h : List.Forall₂ E as bs) : List.Forall₂ E (order.sort as) (order.sort bs) :=
  sort_forall₂ (fun a b hab key _ => hE a b hab key.field) h

theorem Scope.window_forall₂ (scope : Scope) {as bs : List Entity} (h : List.Forall₂ E as bs) :
    List.Forall₂ E (scope.window as) (scope.window bs) := by
  unfold Scope.window
  cases scope.limit with
  | none => exact List.forall₂_drop _ h
  | some limit => exact List.forall₂_take _ (List.forall₂_drop _ h)

theorem optionRel_refl {α : Type} {R : α → α → Prop} (h : ∀ a, R a a) (found : Option α) :
    Option.Rel R found found := by
  cases found with
  | none => exact .none
  | some a => exact .some (h a)

/-- Two stores answer the calls of a pass alike. -/
structure RepliesAlike (E : Entity → Entity → Prop) (reply reply' : (call : Call) → call.Answer) :
    Prop where
  get : ∀ collection id projection, EndsAlike (Option.Rel E)
    (reply (.get collection id projection)) (reply' (.get collection id projection))
  find : ∀ collection filter projection, EndsAlike (List.Forall₂ E)
    (reply (.find collection filter projection)) (reply' (.find collection filter projection))

/-- The same store answers the same. -/
theorem RepliesAlike.refl (reply : (call : Call) → call.Answer) : RepliesAlike Eq reply reply where
  get collection id projection := by
    refine (EndsAlike.eq_iff.mpr rfl).mono ?_
    rintro found _ rfl
    exact optionRel_refl (fun _ => rfl) found
  find collection filter projection := by
    rw [List.forall₂_eq_eq_eq]
    exact EndsAlike.eq_iff.mpr rfl

end LinkedDocs
