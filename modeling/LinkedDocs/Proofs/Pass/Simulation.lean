import LinkedDocs.Proofs.Pass.Memo
import LinkedDocs.Proofs.Plan.Renumbering
import LinkedDocs.Proofs.Store.Alike

/-!
# Two passes side by side

Two passes go by the same plan, up to the numbers of its nodes, with stores that answer alike. Then
they go alike. What the one files at a node the other files at the node that bears the number for it
(`Memo.Tracks`), so they miss and hit together, and both succeed or both fail with the same error:

> `simulates_expand`: following the references of alike documents goes alike.

What may differ is given by a relation `E` of entities, which says at least that their fields have
the same values. It is equality where one store is read in two ways.
-/

namespace LinkedDocs

variable {number : Nat → Nat} {E : Entity → Entity → Prop}

namespace Memo

/-- What is filed at a node of the first memo is filed in the second memo at the node that bears the
number for it. -/
structure Tracks (number : Nat → Nat) (E : Entity → Entity → Prop) (memo memo' : Memo) : Prop where
  entity : ∀ node id, Option.Rel (Option.Rel E) (memo.entity? node id)
    (memo'.entity? (number node) id)
  page : ∀ node parent, Option.Rel (List.Forall₂ E) (memo.page? node parent)
    (memo'.page? (number node) parent)
  expanded : ∀ node id, memo.isExpanded node id = memo'.isExpanded (number node) id

theorem tracks_empty : Tracks number E .empty .empty :=
  ⟨fun _ _ => .none, fun _ _ => .none, fun _ _ => rfl⟩

variable {memo memo' : Memo}

/-- The counts are free. -/
theorem Tracks.count (h : Tracks number E memo memo') (gets finds hits gets' finds' hits' : Nat) :
    Tracks number E { memo with gets := gets, finds := finds, hits := hits }
      { memo' with gets := gets', finds := finds', hits := hits' } :=
  ⟨h.entity, h.page, h.expanded⟩

section Filing

variable (inj : Function.Injective number)
include inj

theorem Tracks.addEntity (h : Tracks number E memo memo') (node : Nat) (id : String)
    {found found' : Option Entity} (hfound : Option.Rel E found found') :
    Tracks number E (memo.addEntity node id found) (memo'.addEntity (number node) id found') := by
  refine ⟨fun other id' => ?_, h.page, h.expanded⟩
  rw [entity?_addEntity, entity?_addEntity]
  by_cases hsame : other = node ∧ id' = id
  · rw [if_pos hsame, if_pos (hsame.imp_left (congrArg number))]
    exact .some hfound
  · rw [if_neg hsame, if_neg (mt (And.imp_left fun heq => inj heq) hsame)]
    exact h.entity other id'

theorem Tracks.addPage (h : Tracks number E memo memo') (node : Nat) (parent : Option String)
    {page page' : List Entity} (hpage : List.Forall₂ E page page') :
    Tracks number E (memo.addPage node parent page)
      (memo'.addPage (number node) parent page') := by
  refine ⟨h.entity, fun other parent' => ?_, h.expanded⟩
  rw [page?_addPage, page?_addPage]
  by_cases hsame : other = node ∧ parent' = parent
  · rw [if_pos hsame, if_pos (hsame.imp_left (congrArg number))]
    exact .some hpage
  · rw [if_neg hsame, if_neg (mt (And.imp_left fun heq => inj heq) hsame)]
    exact h.page other parent'

theorem Tracks.addExpanded (h : Tracks number E memo memo') (node : Nat) (id : String) :
    Tracks number E (memo.addExpanded node id) (memo'.addExpanded (number node) id) := by
  refine ⟨h.entity, h.page, fun other id' => ?_⟩
  have hold := h.expanded other id'
  unfold isExpanded at hold ⊢
  rw [Memo.addExpanded, Memo.addExpanded, List.contains_cons, List.contains_cons, hold]
  congr 1
  rw [Bool.eq_iff_iff, beq_iff_eq, beq_iff_eq, Prod.mk.injEq, Prod.mk.injEq]
  exact and_congr_left' inj.eq_iff.symm

end Filing

end Memo

namespace Pass

variable {α β γ δ : Type} {reply reply' : (call : Call) → call.Answer}

/-- From memos of which one tracks the other, two steps end alike and leave such memos. What the
second one finds filed stays filed. -/
def Simulates (number : Nat → Nat) (E : Entity → Entity → Prop)
    (reply reply' : (call : Call) → call.Answer) (R : α → β → Prop) (x : Pass α) (y : Pass β) :
    Prop :=
  ∀ memo memo', Memo.Tracks number E memo memo' →
    EndsAlike R (eval reply x memo).1 (eval reply' y memo').1 ∧
      Memo.Tracks number E (eval reply x memo).2 (eval reply' y memo').2 ∧
      ∀ {node id found}, memo'.entity? node id = some found →
        (eval reply' y memo').2.entity? node id = some found

variable {R : α → β → Prop} {S : γ → δ → Prop}

theorem simulates_pure {a : α} {b : β} (h : R a b) :
    Simulates number E reply reply' R (pure a) (pure b) :=
  fun _ _ htracks => ⟨.ok h, htracks, fun hfiled => hfiled⟩

theorem simulates_throw (error : QueryError) :
    Simulates number E reply reply' R (throw error) (throw error) :=
  fun _ _ htracks => ⟨.error error, htracks, fun hfiled => hfiled⟩

theorem simulates_ask {call call' : Call} {R : call.Reply → call'.Reply → Prop}
    (h : EndsAlike R (reply call) (reply' call')) :
    Simulates number E reply reply' R (ask call) (ask call') := by
  intro memo memo' htracks
  rw [eval_ask, eval_ask]
  exact ⟨h.mapError QueryError.ofStore, htracks, fun hfiled => hfiled⟩

/-- Changes of the memos that keep one tracking the other. -/
theorem simulates_modify {f g : Memo → Memo}
    (h : ∀ {memo memo'}, Memo.Tracks number E memo memo' → Memo.Tracks number E (f memo) (g memo'))
    (keeps : ∀ {memo node id found}, Memo.entity? memo node id = some found →
      Memo.entity? (g memo) node id = some found) :
    Simulates number E reply reply' Eq (modify f) (modify g) :=
  fun _ _ htracks => ⟨.ok rfl, h htracks, keeps⟩

theorem simulates_countFind : Simulates number E reply reply' Eq
    (modify fun memo => { memo with finds := memo.finds + 1 })
    (modify fun memo => { memo with finds := memo.finds + 1 }) :=
  simulates_modify (fun htracks => htracks.count _ _ _ _ _ _) fun hfiled => hfiled

theorem simulates_countHit : Simulates number E reply reply' Eq
    (modify fun memo => { memo with hits := memo.hits + 1 })
    (modify fun memo => { memo with hits := memo.hits + 1 }) :=
  simulates_modify (fun htracks => htracks.count _ _ _ _ _ _) fun hfiled => hfiled

theorem Simulates.bind {x : Pass α} {y : Pass β} {f : α → Pass γ} {g : β → Pass δ}
    (hxy : Simulates number E reply reply' R x y)
    (hfg : ∀ a b, R a b → Simulates number E reply reply' S (f a) (g b)) :
    Simulates number E reply reply' S (x >>= f) (y >>= g) := by
  intro memo memo' htracks
  obtain ⟨hends, hleft, hkeeps⟩ := hxy memo memo' htracks
  rw [eval_bind, eval_bind]
  rcases hx : eval reply x memo with ⟨result, left⟩
  rcases hy : eval reply' y memo' with ⟨result', left'⟩
  rw [hx, hy] at hends hleft
  rw [hy] at hkeeps
  cases hends with
  | ok hab =>
    obtain ⟨hends', hleft', hkeeps'⟩ := hfg _ _ hab left left' hleft
    exact ⟨hends', hleft', fun hfiled => hkeeps' (hkeeps hfiled)⟩
  | error error => exact ⟨.error error, hleft, hkeeps⟩

/-- What is done next may depend on what is filed. -/
theorem simulates_get {f : Memo → Pass α} {g : Memo → Pass β}
    (h : ∀ memo memo', Memo.Tracks number E memo memo' →
      Simulates number E reply reply' R (f memo) (g memo')) :
    Simulates number E reply reply' R (get >>= f) (get >>= g) :=
  fun memo memo' htracks => h memo memo' htracks memo memo' htracks

theorem Simulates.discard {x : Pass α} {y : Pass β} (h : Simulates number E reply reply' R x y) :
    Simulates number E reply reply' Eq (discard x) (discard y) := by
  rw [discard_eq, discard_eq]
  exact h.bind fun _ _ _ => simulates_pure rfl

theorem simulates_forEach {step step' : Entity → Pass Unit}
    (h : ∀ a b, E a b → Simulates number E reply reply' Eq (step a) (step' b))
    {items items' : List Entity} (hitems : List.Forall₂ E items items') :
    Simulates number E reply reply' Eq (forEach step items) (forEach step' items') := by
  induction hitems with
  | nil => exact simulates_pure rfl
  | cons hitem _ ih => exact (h _ _ hitem).bind fun _ _ _ => ih

/-! ## Resolving -/

section Resolving

variable (inj : Function.Injective number) (hE : ∀ a b, E a b → a.Alike b)
  (replies : RepliesAlike E reply reply') (p : Permission)
include inj replies

theorem simulates_fetchOne (plan : Plan) (id : String) :
    Simulates number E reply reply' (Option.Rel E) (fetchOne plan id)
      (fetchOne (plan.renumber number) id) := by
  intro memo memo' htracks
  rw [eval_fetchOne, eval_fetchOne, Plan.projection_renumber, Plan.info_renumber]
  dsimp only
  have hfiled := htracks.entity plan.info.id id
  cases hfirst : memo.entity? plan.info.id id with
  | some found =>
    -- a hit in both
    rw [hfirst] at hfiled
    cases hsecond : memo'.entity? (number plan.info.id) id with
    | none =>
      rw [hsecond] at hfiled
      cases hfiled
    | some found' =>
      rw [hsecond] at hfiled
      cases hfiled with
      | some halike => exact ⟨.ok halike, htracks.count _ _ _ _ _ _, fun hfiled => hfiled⟩
  | none =>
    -- a miss in both
    rw [hfirst] at hfiled
    cases hsecond : memo'.entity? (number plan.info.id) id with
    | some found' =>
      rw [hsecond] at hfiled
      cases hfiled
    | none =>
      dsimp only
      have hanswer := replies.get plan.info.collection id plan.projection
      generalize reply (.get plan.info.collection id plan.projection) = answer at hanswer ⊢
      generalize reply' (.get plan.info.collection id plan.projection) = answer' at hanswer ⊢
      cases hanswer with
      | error error => exact ⟨.error _, htracks.count _ _ _ _ _ _, fun hfiled => hfiled⟩
      | ok halike =>
        have hcounted := htracks.count (memo.gets + 1) memo.finds memo.hits (memo'.gets + 1)
          memo'.finds memo'.hits
        refine ⟨.ok halike, hcounted.addEntity inj plan.info.id id halike, ?_⟩
        exact fun hfiled => (Memo.le_addEntity hsecond _).entity hfiled

theorem simulates_resolveOne (plan : Plan) {expand expand' : Entity → Pass Unit}
    (hexpand : ∀ a b, E a b → Simulates number E reply reply' Eq (expand a) (expand' b))
    (id : String) :
    Simulates number E reply reply' (Option.Rel E) (resolveOne p plan expand id)
      (resolveOne p (plan.renumber number) expand' id) := by
  rw [resolveOne_eq, resolveOne_eq, Plan.info_renumber]
  dsimp only
  split
  · refine (simulates_fetchOne inj replies plan id).bind fun found found' hfound => ?_
    cases hfound with
    | none => exact simulates_pure .none
    | some halike =>
      exact (hexpand _ _ halike).bind fun _ _ _ => simulates_pure (.some halike)
  · exact simulates_throw _

include hE

omit inj in
/-- Searches that differ in nothing but how the conditions are split between link and scope. -/
theorem simulates_fetchPage {plan plan' : Plan} {link link' : Filter}
    (hcollection : plan'.info.collection = plan.info.collection)
    (hfilter : link' ++ plan'.info.scope.filter = link ++ plan.info.scope.filter)
    (hprojection : plan'.projection = plan.projection)
    (hpage : ∀ found, plan'.info.scope.window (plan'.info.scope.order.sort found)
      = plan.info.scope.window (plan.info.scope.order.sort found))
    {expand expand' : Entity → Pass Unit}
    (hexpand : ∀ a b, E a b → Simulates number E reply reply' Eq (expand a) (expand' b)) :
    Simulates number E reply reply' (List.Forall₂ E) (fetchPage p plan expand link)
      (fetchPage p plan' expand' link') := by
  unfold fetchPage
  rw [hcollection, hfilter, hprojection]
  cases p.narrow plan.info.collection (link ++ plan.info.scope.filter) with
  | error error => exact simulates_throw error
  | ok filter =>
    refine simulates_countFind.bind fun _ _ _ => ?_
    refine (simulates_ask (replies.find _ filter plan.projection)).bind
      fun found found' hfound => ?_
    dsimp only
    rw [hpage found']
    have halike := plan.info.scope.window_forall₂ (Order.sort_alike hE plan.info.scope.order hfound)
    exact (simulates_forEach hexpand halike).bind fun _ _ _ => simulates_pure halike

theorem simulates_resolveMany (plan : Plan) {expand expand' : Entity → Pass Unit}
    (hexpand : ∀ a b, E a b → Simulates number E reply reply' Eq (expand a) (expand' b))
    (parent : Option String) (link : Filter) :
    Simulates number E reply reply' (List.Forall₂ E) (resolveMany p plan expand parent link)
      (resolveMany p (plan.renumber number) expand' parent link) := by
  have hsearch : Simulates number E reply reply' (List.Forall₂ E) (fetchPage p plan expand link)
      (fetchPage p (plan.renumber number) expand' link) := by
    refine simulates_fetchPage hE replies p ?_ ?_ (Plan.projection_renumber number plan) ?_ hexpand
    · rw [Plan.info_renumber]
    · rw [Plan.info_renumber]
    · intro found
      rw [Plan.info_renumber]
  rw [resolveMany_eq, resolveMany_eq, Plan.info_renumber]
  refine simulates_get fun memo memo' htracks => ?_
  have hfiled := htracks.page plan.info.id parent
  dsimp only
  generalize memo.page? plan.info.id parent = page at hfiled ⊢
  generalize memo'.page? (number plan.info.id) parent = page' at hfiled ⊢
  cases hfiled with
  | some halike =>
    exact simulates_countHit.bind fun _ _ _ => simulates_pure halike
  | none =>
    refine hsearch.bind fun page page' halike => ?_
    exact (simulates_modify (fun htracks => htracks.addPage inj plan.info.id parent halike)
      fun hfiled => hfiled).bind fun _ _ _ => simulates_pure halike

end Resolving

/-! ## Following references -/

mutual

/-- Following the references of alike documents goes alike. -/
theorem simulates_expand (inj : Function.Injective number) (hE : ∀ a b, E a b → a.Alike b)
    (replies : RepliesAlike E reply reply') (p : Permission) :
    ∀ (plan : Plan) (a b : Entity), E a b →
      Simulates number E reply reply' Eq (expand p plan a) (expand p (plan.renumber number) b)
  | .node info ones manys, a, b, h => by
    rw [Plan.renumber, expand, expand, Plan.isEmpty_renumberAll, Plan.isEmpty_renumberAll,
      (hE a b h).id]
    split
    · exact simulates_pure rfl
    · refine simulates_get fun memo memo' htracks => ?_
      dsimp only
      rw [htracks.expanded info.id b.id]
      split
      · exact simulates_pure rfl
      · refine (simulates_followOnes inj hE replies p ones a b h).bind fun _ _ _ => ?_
        refine (simulates_followManys inj hE replies p info.collection manys a b h).bind
          fun _ _ _ => ?_
        exact simulates_modify (fun htracks => htracks.addExpanded inj info.id b.id)
          fun hfiled => hfiled

theorem simulates_followOnes (inj : Function.Injective number) (hE : ∀ a b, E a b → a.Alike b)
    (replies : RepliesAlike E reply reply') (p : Permission) :
    ∀ (ones : List (String × Plan)) (a b : Entity), E a b →
      Simulates number E reply reply' Eq (followOnes p ones a)
        (followOnes p (Plan.renumberAll number ones) b)
  | [], _, _, _ => simulates_pure rfl
  | (target, child) :: rest, a, b, h => by
    have hrest := simulates_followOnes inj hE replies p rest a b h
    rw [Plan.renumberAll, followOnes, followOnes, (hE a b h).link]
    cases b.link target with
    | single id =>
      exact (simulates_resolveOne inj replies p child
        (simulates_expand inj hE replies p child) id).discard.bind fun _ _ _ => hrest
    | absent | many | invalid => exact hrest

theorem simulates_followManys (inj : Function.Injective number) (hE : ∀ a b, E a b → a.Alike b)
    (replies : RepliesAlike E reply reply') (p : Permission) :
    ∀ (collection : String) (manys : List (String × Plan)) (a b : Entity), E a b →
      Simulates number E reply reply' Eq (followManys p collection manys a)
        (followManys p collection (Plan.renumberAll number manys) b)
  | _, [], _, _, _ => simulates_pure rfl
  | collection, (target, child) :: rest, a, b, h => by
    have hrest := simulates_followManys inj hE replies p collection rest a b h
    rw [Plan.renumberAll, followManys, followManys, (hE a b h).linkFilter?, (hE a b h).id]
    cases linkFilter? collection b target with
    | some link =>
      exact (simulates_resolveMany inj hE replies p child
        (simulates_expand inj hE replies p child) (some b.id) link).discard.bind fun _ _ _ => hrest
    | none => exact hrest

end

/-! ## What stays filed -/

variable {p : Permission} {id : String} {memo : Memo} {e : Entity}

theorem tracks_refl (memo : Memo) : Memo.Tracks (fun n => n) Eq memo memo := by
  refine ⟨fun _ _ => optionRel_refl (optionRel_refl fun _ => rfl) _, fun _ _ => ?_, fun _ _ => rfl⟩
  rw [List.forall₂_eq_eq_eq]
  exact optionRel_refl (fun _ => rfl) _

/-- What is filed stays filed while references are followed. -/
theorem filed_of_expand {plan : Plan} {node : Nat} {found : Option Entity}
    (h : memo.entity? node id = some found) :
    (eval reply (expand p plan e) memo).2.entity? node id = some found := by
  have hself := simulates_expand Function.injective_id .of_eq (.refl reply) p plan e e rfl memo memo
    (tracks_refl memo)
  rw [Plan.renumber_id] at hself
  exact hself.2.2 h

theorem filed_of_fetchOne {plan : Plan} {found : Option Entity} {left : Memo}
    (h : eval reply (fetchOne plan id) memo = (.ok found, left)) :
    left.entity? plan.info.id id = some found := by
  rw [eval_fetchOne] at h
  split at h
  · next hfiled =>
    cases h
    exact hfiled
  · split at h
    · cases h
      exact (Memo.entity?_addEntity ..).trans (if_pos ⟨rfl, rfl⟩)
    · cases h

/-- The document that is read is filed at the root. -/
theorem filed_of_one {plan : Plan} {found : Option Entity} {left : Memo}
    (h : eval reply (Pass.one p plan id) memo = (.ok found, left)) :
    left.entity? plan.info.id id = some found := by
  rw [Pass.one, resolveOne_eq] at h
  split at h
  · obtain ⟨got, memo', hfetch, hfollow⟩ := of_eval_bind reply h
    have hfiled := filed_of_fetchOne hfetch
    cases got with
    | none =>
      cases hfollow
      exact hfiled
    | some e =>
      obtain ⟨_, after, hexpand, hdone⟩ := of_eval_bind reply hfollow
      cases hdone
      have hkept : (eval reply (expand p plan e) memo').2.entity? plan.info.id id
          = some (some e) := filed_of_expand hfiled
      rwa [hexpand] at hkept
  · cases h

end Pass

end LinkedDocs
