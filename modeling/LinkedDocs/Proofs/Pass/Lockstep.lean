import LinkedDocs.Proofs.Pass.Memo
import LinkedDocs.Proofs.Store.Generosity

/-!
# Passes that are shown more than they ask for

A pass follows links, sorts and files documents. All it looks at is asked for: the projection of a
node has the fields that are read there, the targets of its references and the keys of its order. So
a pass that is shown more, as much as the store likes at each call, goes as the pass that is shown
whole documents:

> `lockstep_expand`: following the references of a part goes as following those of the whole.

The two passes file different entities, but the one always a part of what the other files, with the
fields that are asked for at the node (`Memo.Parts`). The first pass is led with fixed answers; of
the second one everything is said for all answers that show enough (`Pass.Lockstep`).
-/

namespace LinkedDocs

/-- What is asked for at a node; nothing is left out where there is none. -/
def Plan.Layout.asked (layout : Plan.Layout) (node : Nat) : Projection :=
  ((layout node).map (·.plan.projection)).getD .all

theorem Plan.Placed.asked {layout : Plan.Layout} {referrer : Option String} {p : Plan}
    (h : Placed layout referrer p) : layout.asked p.info.id = p.projection := by
  rw [Layout.asked, h.root]
  rfl

open Entity (Part)

namespace Memo

/-- At each node the second memo files parts of what the first one files, with the fields that are
asked for there. -/
structure Parts (asked : Nat → Projection) (memo memo' : Memo) : Prop where
  entity : ∀ node id, Option.Rel (Option.Rel (Part (asked node))) (memo.entity? node id)
    (memo'.entity? node id)
  page : ∀ node parent, Option.Rel (List.Forall₂ (Part (asked node))) (memo.page? node parent)
    (memo'.page? node parent)
  expanded : ∀ node id, memo.isExpanded node id = memo'.isExpanded node id

variable {asked : Nat → Projection} {memo memo' : Memo}

theorem parts_empty : Parts asked .empty .empty :=
  ⟨fun _ _ => .none, fun _ _ => .none, fun _ _ => rfl⟩

/-- The counts are free. -/
theorem Parts.count (h : Parts asked memo memo') (gets finds hits gets' finds' hits' : Nat) :
    Parts asked { memo with gets := gets, finds := finds, hits := hits }
      { memo' with gets := gets', finds := finds', hits := hits' } :=
  ⟨h.entity, h.page, h.expanded⟩

theorem Parts.addEntity (h : Parts asked memo memo') (node : Nat) (id : String)
    {found found' : Option Entity} (hfound : Option.Rel (Part (asked node)) found found') :
    Parts asked (memo.addEntity node id found) (memo'.addEntity node id found') := by
  refine ⟨fun other id' => ?_, h.page, h.expanded⟩
  rw [entity?_addEntity, entity?_addEntity]
  split
  · next hsame =>
    rw [hsame.1]
    exact .some hfound
  · exact h.entity other id'

theorem Parts.addPage (h : Parts asked memo memo') (node : Nat) (parent : Option String)
    {page page' : List Entity} (hpage : List.Forall₂ (Part (asked node)) page page') :
    Parts asked (memo.addPage node parent page) (memo'.addPage node parent page') := by
  refine ⟨h.entity, fun other parent' => ?_, h.expanded⟩
  rw [page?_addPage, page?_addPage]
  split
  · next hsame =>
    rw [hsame.1]
    exact .some hpage
  · exact h.page other parent'

theorem Parts.addExpanded (h : Parts asked memo memo') (node : Nat) (id : String) :
    Parts asked (memo.addExpanded node id) (memo'.addExpanded node id) := by
  refine ⟨h.entity, h.page, fun other id' => ?_⟩
  have hold := h.expanded other id'
  unfold isExpanded at hold ⊢
  rw [Memo.addExpanded, Memo.addExpanded, List.contains_cons, List.contains_cons, hold]

end Memo

namespace Pass

variable {α β γ δ : Type} {m : Memory} {asked : Nat → Projection}

/-- From memos of which one files parts of what the other files, the first step is led with whole
documents, and the second one, whatever it is shown, ends alike and leaves such memos. -/
def Lockstep (m : Memory) (asked : Nat → Projection) (R : α → β → Prop) (x : Pass α) (y : Pass β) :
    Prop :=
  ∀ memo memo', Memo.Parts asked memo memo' → (y.start memo').Ensures m.Enough fun ended =>
    EndsAlike R (eval m.whole x memo).1 ended.1 ∧ Memo.Parts asked (eval m.whole x memo).2 ended.2

variable {R : α → β → Prop} {S : γ → δ → Prop}

theorem lockstep_pure {a : α} {b : β} (h : R a b) : Lockstep m asked R (pure a) (pure b) :=
  fun _ _ hparts => ⟨.ok h, hparts⟩

theorem lockstep_throw (error : QueryError) : Lockstep m asked R (throw error) (throw error) :=
  fun _ _ hparts => ⟨.error error, hparts⟩

theorem lockstep_modify {f g : Memo → Memo}
    (h : ∀ {memo memo'}, Memo.Parts asked memo memo' → Memo.Parts asked (f memo) (g memo')) :
    Lockstep m asked Eq (modify f) (modify g) := fun _ _ hparts => ⟨.ok rfl, h hparts⟩

theorem lockstep_count {gets finds hits : Memo → Nat} : Lockstep m asked Eq
    (modify fun memo => { memo with gets := gets memo, finds := finds memo, hits := hits memo })
    (modify fun memo => { memo with gets := gets memo, finds := finds memo, hits := hits memo }) :=
  lockstep_modify fun hparts => hparts.count _ _ _ _ _ _

/-- The store is asked the same, and shows enough. -/
theorem lockstep_ask (call : Call) {R : call.Reply → call.Reply → Prop}
    (h : ∀ answer, m.Enough call answer → EndsAlike R (m.whole call) answer) :
    Lockstep m asked R (ask call) (ask call) := by
  intro memo memo' hparts
  rw [start_ask, eval_ask]
  intro answer hanswer
  have hends := (h answer hanswer).mapError QueryError.ofStore
  cases answer with
  | ok reply => exact ⟨hends, hparts⟩
  | error error => exact ⟨hends, hparts⟩

/-- One document is asked for. -/
theorem lockstep_askOne (collection id : String) (projection : Projection) :
    Lockstep m asked (Option.Rel (Part projection)) (ask (.get collection id projection))
      (ask (.get collection id projection)) :=
  lockstep_ask (.get collection id projection) fun _ hanswer => hanswer

/-- Documents are searched for. -/
theorem lockstep_askMany (collection : String) (filter : Filter) (projection : Projection) :
    Lockstep m asked (List.Forall₂ (Part projection)) (ask (.find collection filter projection))
      (ask (.find collection filter projection)) :=
  lockstep_ask (.find collection filter projection) fun _ hanswer => hanswer

theorem Lockstep.bind {x : Pass α} {y : Pass β} {f : α → Pass γ} {g : β → Pass δ}
    (hxy : Lockstep m asked R x y) (hfg : ∀ a b, R a b → Lockstep m asked S (f a) (g b)) :
    Lockstep m asked S (x >>= f) (y >>= g) := by
  intro memo memo' hparts
  rw [start_bind, eval_bind]
  refine (hxy memo memo' hparts).bind fun ended hended => ?_
  obtain ⟨result', left'⟩ := ended
  obtain ⟨hends, hleft⟩ := hended
  generalize eval m.whole x memo = ended at hends hleft ⊢
  obtain ⟨result, left⟩ := ended
  cases hends with
  | ok hab => exact hfg _ _ hab left left' hleft
  | error error => exact ⟨.error error, hleft⟩

/-- What is done next may depend on what is filed. -/
theorem lockstep_get {f : Memo → Pass α} {g : Memo → Pass β}
    (h : ∀ memo memo', Memo.Parts asked memo memo' → Lockstep m asked R (f memo) (g memo')) :
    Lockstep m asked R (get >>= f) (get >>= g) :=
  fun memo memo' hparts => h memo memo' hparts memo memo' hparts

theorem Lockstep.discard {x : Pass α} {y : Pass β} (h : Lockstep m asked R x y) :
    Lockstep m asked Eq (discard x) (discard y) := by
  rw [discard_eq, discard_eq]
  exact h.bind fun _ _ _ => lockstep_pure rfl

theorem lockstep_forEach {E : Entity → Entity → Prop} {step step' : Entity → Pass Unit}
    (h : ∀ a b, E a b → Lockstep m asked Eq (step a) (step' b)) {items items' : List Entity}
    (hitems : List.Forall₂ E items items') :
    Lockstep m asked Eq (forEach step items) (forEach step' items') := by
  induction hitems with
  | nil => exact lockstep_pure rfl
  | cons hitem _ ih => exact (h _ _ hitem).bind fun _ _ _ => ih

/-! ## Resolving -/

section Resolving

variable {plan : Plan} (hasked : asked plan.info.id = plan.projection)
include hasked

theorem lockstep_fetchOne (id : String) :
    Lockstep m asked (Option.Rel (Part plan.projection)) (fetchOne plan id) (fetchOne plan id) := by
  refine lockstep_get fun memo memo' hparts => ?_
  have hfiled := hparts.entity plan.info.id id
  rw [hasked] at hfiled
  generalize memo.entity? plan.info.id id = found at hfiled ⊢
  generalize memo'.entity? plan.info.id id = found' at hfiled ⊢
  cases hfiled with
  | some hfound => exact lockstep_count.bind fun _ _ _ => lockstep_pure hfound
  | none =>
    refine lockstep_count.bind fun _ _ _ => ?_
    refine (lockstep_askOne _ _ _).bind fun found found' hfound => ?_
    refine (lockstep_modify fun hparts => hparts.addEntity plan.info.id id ?_).bind
      fun _ _ _ => lockstep_pure hfound
    rw [hasked]
    exact hfound

variable (p : Permission) {expand expand' : Entity → Pass Unit}
  (hexpand : ∀ a b, Part plan.projection a b → Lockstep m asked Eq (expand a) (expand' b))
include hexpand

theorem lockstep_resolveOne (id : String) :
    Lockstep m asked (Option.Rel (Part plan.projection)) (resolveOne p plan expand id)
      (resolveOne p plan expand' id) := by
  rw [resolveOne_eq, resolveOne_eq]
  split
  · refine (lockstep_fetchOne hasked id).bind fun found found' hfound => ?_
    cases hfound with
    | none => exact lockstep_pure .none
    | some hpart => exact (hexpand _ _ hpart).bind fun _ _ _ => lockstep_pure (.some hpart)
  · exact lockstep_throw _

omit hasked in
theorem lockstep_fetchPage (link : Filter) :
    Lockstep m asked (List.Forall₂ (Part plan.projection)) (fetchPage p plan expand link)
      (fetchPage p plan expand' link) := by
  unfold fetchPage
  cases p.narrow plan.info.collection (link ++ plan.info.scope.filter) with
  | error error => exact lockstep_throw error
  | ok filter =>
    refine lockstep_count.bind fun _ _ _ => ?_
    refine (lockstep_askMany _ _ _).bind fun found found' hfound => ?_
    -- the keys of the order are asked for, so both sort and cut alike
    have hkeys : ∀ a b, Part plan.projection a b → ∀ key ∈ plan.info.scope.order,
        a.get? key.field = b.get? key.field := fun a b hpart key hkey =>
      (hpart.get? (plan.projection_includes_order key hkey)).symm
    have hpage := plan.info.scope.window_forall₂ (Order.sort_forall₂ hkeys hfound)
    exact (lockstep_forEach hexpand hpage).bind fun _ _ _ => lockstep_pure hpage

theorem lockstep_resolveMany (parent : Option String) (link : Filter) :
    Lockstep m asked (List.Forall₂ (Part plan.projection)) (resolveMany p plan expand parent link)
      (resolveMany p plan expand' parent link) := by
  rw [resolveMany_eq, resolveMany_eq]
  refine lockstep_get fun memo memo' hparts => ?_
  have hfiled := hparts.page plan.info.id parent
  rw [hasked] at hfiled
  generalize memo.page? plan.info.id parent = page at hfiled ⊢
  generalize memo'.page? plan.info.id parent = page' at hfiled ⊢
  cases hfiled with
  | some hpage => exact lockstep_count.bind fun _ _ _ => lockstep_pure hpage
  | none =>
    refine (lockstep_fetchPage p hexpand link).bind fun page page' hpage => ?_
    refine (lockstep_modify fun hparts => hparts.addPage plan.info.id parent ?_).bind
      fun _ _ _ => lockstep_pure hpage
    rw [hasked]
    exact hpage

end Resolving

/-! ## Following references -/

/-- A part has the links of the whole, as far as they are followed. -/
theorem linkFilter?_part {asked : Projection} {a b : Entity} (h : Part asked a b)
    {target : String} (htarget : asked.includes target = true) (collection : String) :
    linkFilter? collection b target = linkFilter? collection a target := by
  rw [linkFilter?, linkFilter?, h.link htarget, h.id]

section Following

variable {layout : Plan.Layout} (p : Permission)

mutual

/-- Following the references of a part of a document goes as following those of the whole. -/
theorem lockstep_expand : ∀ {plan : Plan} {referrer : Option String},
    Plan.Placed layout referrer plan → ∀ a b, Part plan.projection a b →
      Lockstep m layout.asked Eq (expand p plan a) (expand p plan b)
  | .node info ones manys, _, hplaced, a, b, h => by
    have hones : ∀ pair ∈ ones, (Plan.node info ones manys).projection.includes pair.1 = true :=
      fun pair hpair => Plan.projection_includes (List.mem_append_left _ (List.mem_append_left _
        (List.mem_append_right _ (List.mem_map_of_mem hpair))))
    have hmanys : ∀ pair ∈ manys, (Plan.node info ones manys).projection.includes pair.1 = true :=
      fun pair hpair => Plan.projection_includes (List.mem_append_left _
        (List.mem_append_right _ (List.mem_map_of_mem hpair)))
    rw [expand, expand, h.id]
    split
    · exact lockstep_pure rfl
    · refine lockstep_get fun memo memo' hparts => ?_
      rw [hparts.expanded info.id a.id]
      split
      · exact lockstep_pure rfl
      · refine (lockstep_followOnes hplaced.2.1 a b h hones).bind fun _ _ _ => ?_
        refine (lockstep_followManys info.collection hplaced.2.2 a b h hmanys).bind fun _ _ _ => ?_
        exact lockstep_modify fun hparts => hparts.addExpanded info.id a.id

theorem lockstep_followOnes : ∀ {ones : List (String × Plan)},
    Plan.AllPlaced layout none ones → ∀ {asked : Projection} (a b : Entity), Part asked a b →
      (∀ pair ∈ ones, asked.includes pair.1 = true) →
        Lockstep m layout.asked Eq (followOnes p ones a) (followOnes p ones b)
  | [], _, _, _, _, _, _ => lockstep_pure rfl
  | (target, child) :: rest, hplaced, asked, a, b, h, htargets => by
    obtain ⟨htarget, hrest⟩ := List.forall_mem_cons.mp htargets
    have hfollow := lockstep_followOnes hplaced.2 a b h hrest
    rw [followOnes, followOnes, h.link htarget]
    cases a.link target with
    | single id =>
      exact (lockstep_resolveOne hplaced.1.asked p (lockstep_expand hplaced.1) id).discard.bind
        fun _ _ _ => hfollow
    | absent | many | invalid => exact hfollow

theorem lockstep_followManys : ∀ (collection : String) {manys : List (String × Plan)},
    Plan.AllPlaced layout (some collection) manys →
      ∀ {asked : Projection} (a b : Entity), Part asked a b →
        (∀ pair ∈ manys, asked.includes pair.1 = true) →
          Lockstep m layout.asked Eq (followManys p collection manys a)
            (followManys p collection manys b)
  | _, [], _, _, _, _, _, _ => lockstep_pure rfl
  | collection, (target, child) :: rest, hplaced, asked, a, b, h, htargets => by
    obtain ⟨htarget, hrest⟩ := List.forall_mem_cons.mp htargets
    have hfollow := lockstep_followManys collection hplaced.2 a b h hrest
    rw [followManys, followManys, linkFilter?_part h htarget, h.id]
    cases linkFilter? collection a target with
    | some link =>
      exact (lockstep_resolveMany hplaced.1.asked p (lockstep_expand hplaced.1) (some a.id)
        link).discard.bind fun _ _ _ => hfollow
    | none => exact hfollow

end

variable {plan : Plan} {referrer : Option String}

/-- Resolving one document. -/
theorem lockstep_one (hplaced : Plan.Placed layout referrer plan) (id : String) :
    Lockstep m layout.asked (Option.Rel (Part plan.projection)) (one p plan id) (one p plan id) :=
  lockstep_resolveOne hplaced.asked p (lockstep_expand p hplaced) id

/-- Resolving a page. -/
theorem lockstep_many (hplaced : Plan.Placed layout referrer plan) (parent : Option String)
    (link : Filter) :
    Lockstep m layout.asked (List.Forall₂ (Part plan.projection)) (many p plan parent link)
      (many p plan parent link) :=
  lockstep_resolveMany hplaced.asked p (lockstep_expand p hplaced) parent link

end Following

end Pass

end LinkedDocs
