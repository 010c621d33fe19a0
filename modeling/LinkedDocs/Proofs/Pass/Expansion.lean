import LinkedDocs.Proofs.Pass.Memo

/-!
# How a pass ends

Following the references of a document is settled by what hangs below it, whatever has been resolved
before:

> `settles_expand`: it fails exactly if something below the document is refused, and otherwise
> leaves a memo that covers the document.

The induction is on the plan. For each kind of step there is one lemma: from a faithful memo, be it
a hit or not, the step gives what the store has and leaves a faithful memo.
-/

namespace LinkedDocs.Pass

variable {m : Memory} {p : Permission} {layout : Plan.Layout} {memo : Memo}

/-- A step that is known to end well. -/
theorem settles_of_eval {α : Type} {step : Pass α} {a : α} {memo' : Memo} {holds : Memo → Prop}
    (heval : eval m.reply step memo = (.ok a, memo')) (h : Memo.Faithful m p layout memo')
    (le : memo.Le memo') (hholds : holds memo') :
    Settles m p layout memo step a holds True := by
  unfold Settles
  rw [heval]
  exact ⟨rfl, trivial, h, le, hholds⟩

/-- A step that goes on as another one from a memo with more in it. -/
theorem Settles.of_eval_eq {α : Type} {step step' : Pass α} {a : α} {memo' : Memo}
    {holds : Memo → Prop} {goesWell : Prop}
    (heval : eval m.reply step memo = eval m.reply step' memo')
    (le : memo.Le memo') (h : Settles m p layout memo' step' a holds goesWell) :
    Settles m p layout memo step a holds goesWell := by
  unfold Settles at h ⊢
  rw [heval]
  split at h
  · obtain ⟨ha, hwell, hfaithful, hle, hholds⟩ := h
    exact ⟨ha, hwell, hfaithful, le.trans hle, hholds⟩
  · exact h

/-- A step after which something else is given. -/
theorem Settles.give {α β : Type} {step : Pass α} {a : α} {holds : Memo → Prop} {goesWell : Prop}
    (h : Settles m p layout memo step a holds goesWell) (b : β) :
    Settles m p layout memo (step >>= fun _ => pure b) b holds goesWell := by
  unfold Settles at h ⊢
  rw [eval_bind]
  generalize eval m.reply step memo = ended at h ⊢
  obtain ⟨result, memo'⟩ := ended
  cases result with
  | ok a' => exact ⟨rfl, h.2⟩
  | error error => exact h

/-- A step for each item of a list. -/
theorem settles_forEach {step : Entity → Pass Unit} (shown : Entity → Entity)
    (holds : Entity → Memo → Prop) (goesWell : Entity → Prop)
    (mono : ∀ e memo₁ memo₂, memo₁.Le memo₂ → holds e memo₁ → holds e memo₂) :
    ∀ (entities : List Entity) (memo : Memo), Memo.Faithful m p layout memo →
      (∀ e ∈ entities, ∀ memo, Memo.Faithful m p layout memo →
        Settles m p layout memo (step (shown e)) () (holds e) (goesWell e)) →
      Settles m p layout memo (forEach step (entities.map shown)) ()
        (fun memo => ∀ e ∈ entities, holds e memo) (∀ e ∈ entities, goesWell e)
  | [], memo, h, _ =>
    (settles_pure h ()).imp (fun _ _ _ e he => absurd he List.not_mem_nil) (by simp)
  | e :: rest, memo, h, hstep => by
    have hfirst := hstep e (List.mem_cons_self ..) memo h
    have hrest : ∀ memo', Memo.Faithful m p layout memo' →
        Settles m p layout memo' (forEach step (rest.map shown)) ()
          (fun memo => ∀ e ∈ rest, holds e memo) (∀ e ∈ rest, goesWell e) := fun memo' h' =>
      settles_forEach shown holds goesWell mono rest memo' h' fun e' he' =>
        hstep e' (List.mem_cons_of_mem _ he')
    refine (hfirst.bind (fun memo' h' _ _ _ => hrest memo' h') (mono e _ _)).imp
      (fun memo' _ hboth => List.forall_mem_cons.mpr hboth) List.forall_mem_cons.symm

section Steps

variable (hm : m.Identified) (distinct : m.Distinct) (on : m.offline = false)
include hm on

/-- The document of a node. -/
theorem settles_fetchOne (h : Memo.Faithful m p layout memo) (place : Plan.Place)
    (hplace : layout place.plan.info.id = some place) (id : String) :
    Settles m p layout memo (fetchOne place.plan id) (place.plan.fetched m id)
      (fun memo => memo.entity? place.plan.info.id id = some (place.plan.fetched m id)) True := by
  cases hfiled : memo.entity? place.plan.info.id id with
  | some found =>
    obtain rfl := h.entity hplace hfiled
    have heval : eval m.reply (fetchOne place.plan id) memo
        = (.ok (place.plan.fetched m id), { memo with hits := memo.hits + 1 }) := by
      rw [eval_fetchOne, hfiled]
    exact settles_of_eval heval (h.count _ _ _) ⟨fun hf => hf, fun hp => hp⟩ hfiled
  | none =>
    have heval : eval m.reply (fetchOne place.plan id) memo
        = (.ok (place.plan.fetched m id),
          Memo.addEntity { memo with gets := memo.gets + 1 } place.plan.info.id id
            (place.plan.fetched m id)) := by
      rw [eval_fetchOne, hfiled, Memory.reply_get_entity hm on]
      rfl
    have hcounted : Memo.Faithful m p layout { memo with gets := memo.gets + 1 } := h.count _ _ _
    have le : memo.Le { memo with gets := memo.gets + 1 } := ⟨fun hf => hf, fun hp => hp⟩
    have hfresh : Memo.entity? { memo with gets := memo.gets + 1 } place.plan.info.id id = none :=
      hfiled
    refine settles_of_eval heval (hcounted.addEntity place hplace hfresh)
      (le.trans (Memo.le_addEntity hfresh _)) ?_
    rw [Memo.entity?_addEntity, if_pos ⟨rfl, rfl⟩]

/-- The document that a single reference leads to, and what hangs below it. -/
theorem settles_resolveOne (h : Memo.Faithful m p layout memo) (place : Plan.Place)
    (hplace : layout place.plan.info.id = some place)
    (hexpand : ∀ e ∈ m.entities place.plan.info.collection, ∀ memo,
      Memo.Faithful m p layout memo →
        Settles m p layout memo (expand p place.plan (e.restrict place.plan.projection)) ()
          (fun memo => place.plan.Covers m p memo e) (place.plan.Resolves m p e))
    (id : String) :
    Settles m p layout memo (resolveOne p place.plan (expand p place.plan) id)
      (place.plan.fetched m id)
      (fun memo => memo.entity? place.plan.info.id id = some (place.plan.fetched m id) ∧
        ∀ found, m.entity? place.plan.info.collection id = some found →
          place.plan.Covers m p memo found)
      (p.check place.plan.info.collection id = true ∧
        ∀ found, m.entity? place.plan.info.collection id = some found →
          place.plan.Resolves m p found) := by
  rw [resolveOne_eq]
  split
  · next hcheck =>
    have hfollow : ∀ memo, Memo.Faithful m p layout memo →
        Settles m p layout memo (follow (expand p place.plan) (place.plan.fetched m id))
          (place.plan.fetched m id)
          (fun memo => ∀ found, m.entity? place.plan.info.collection id = some found →
            place.plan.Covers m p memo found)
          (∀ found, m.entity? place.plan.info.collection id = some found →
            place.plan.Resolves m p found) := by
      intro memo' h'
      cases hfound : m.entity? place.plan.info.collection id with
      | none =>
        rw [Plan.fetched, hfound]
        exact (settles_pure h' none).imp (by simp) (by simp)
      | some e =>
        rw [Plan.fetched, hfound]
        have he := hexpand e (Memory.mem_entities_of_entity? hfound) memo' h'
        exact (he.give (some (e.restrict place.plan.projection))).imp (by simp) (by simp)
    refine ((settles_fetchOne hm on h place hplace id).bind (fun memo' h' _ _ _ => hfollow memo' h')
      fun le hf => le.entity hf).imp (fun _ _ hboth => hboth) ?_
    simp [hcheck]
  · next hcheck => exact settles_throw _ fun hwell => hcheck hwell.1

/-- The page that a link leads to, and what hangs below it, searched for anew. -/
theorem settles_fetchPage (h : Memo.Faithful m p layout memo) (place : Plan.Place)
    (hexpand : ∀ e ∈ m.entities place.plan.info.collection, ∀ memo,
      Memo.Faithful m p layout memo →
        Settles m p layout memo (expand p place.plan (e.restrict place.plan.projection)) ()
          (fun memo => place.plan.Covers m p memo e) (place.plan.Resolves m p e))
    (link : Filter) :
    Settles m p layout memo (fetchPage p place.plan (expand p place.plan) link)
      (place.plan.fetchedPage m p link)
      (fun memo => ∀ member ∈ m.page p place.plan.info.collection link place.plan.info.scope,
        place.plan.Covers m p memo member)
      (p.refuses place.plan.info.collection (link ++ place.plan.info.scope.filter) = false ∧
        ∀ member ∈ m.page p place.plan.info.collection link place.plan.info.scope,
          place.plan.Resolves m p member) := by
  unfold fetchPage
  cases hrefuses : p.refuses place.plan.info.collection (link ++ place.plan.info.scope.filter) with
  | true =>
    obtain ⟨id, hnarrow⟩ := Permission.narrow_of_refuses hrefuses
    rw [hnarrow]
    exact settles_throw (.forbidden place.plan.info.collection id) (by simp)
  | false =>
    obtain ⟨narrowed, hnarrow, -⟩ := Permission.narrow_of_not_refuses hrefuses
    obtain ⟨found, hreply, hpage⟩ :=
      Memory.reply_find_page hm on hnarrow place.plan.projection_includes_order
    rw [hnarrow]
    have hcounted : Memo.Faithful m p layout { memo with finds := memo.finds + 1 } := h.count _ _ _
    have hall : Settles m p layout { memo with finds := memo.finds + 1 }
        (forEach (expand p place.plan) (place.plan.fetchedPage m p link)) ()
        (fun memo => ∀ member ∈ m.page p place.plan.info.collection link place.plan.info.scope,
          place.plan.Covers m p memo member)
        (∀ member ∈ m.page p place.plan.info.collection link place.plan.info.scope,
          place.plan.Resolves m p member) :=
      settles_forEach (·.restrict place.plan.projection)
        (fun member memo => place.plan.Covers m p memo member) (place.plan.Resolves m p)
        (fun _ _ _ le hc => Plan.Covers.mono le hc) _ _ hcounted
        fun e he => hexpand e (Memory.mem_entities_of_page he)
    have le : memo.Le { memo with finds := memo.finds + 1 } := ⟨fun hf => hf, fun hp => hp⟩
    refine Settles.of_eval_eq ?_ le
      ((hall.give (place.plan.fetchedPage m p link)).imp (fun _ _ hc => hc) (by simp))
    dsimp only
    rw [eval_bind, eval_modify]
    dsimp only
    rw [eval_bind, eval_ask, hreply]
    show eval m.reply (forEach _ (place.plan.info.scope.window
      (place.plan.info.scope.order.sort found)) >>= fun _ => pure _) _ = _
    rw [hpage]
    rfl

include distinct

/-- The page that a document refers to, and what hangs below it. -/
theorem settles_resolveMany (h : Memo.Faithful m p layout memo) (place : Plan.Place)
    {collection : String} {e : Entity} {link : Filter}
    (hplace : layout place.plan.info.id = some place) (hreferrer : place.referrer = some collection)
    (he : e ∈ m.entities collection)
    (hlink : linkFilter? collection e place.plan.info.collection = some link)
    (hexpand : ∀ e ∈ m.entities place.plan.info.collection, ∀ memo,
      Memo.Faithful m p layout memo →
        Settles m p layout memo (expand p place.plan (e.restrict place.plan.projection)) ()
          (fun memo => place.plan.Covers m p memo e) (place.plan.Resolves m p e)) :
    Settles m p layout memo (resolveMany p place.plan (expand p place.plan) (some e.id) link)
      (place.plan.fetchedPage m p link)
      (fun memo => memo.page? place.plan.info.id (some e.id)
          = some (place.plan.fetchedPage m p link) ∧
        ∀ member ∈ m.page p place.plan.info.collection link place.plan.info.scope,
          place.plan.Covers m p memo member)
      (p.refuses place.plan.info.collection (link ++ place.plan.info.scope.filter) = false ∧
        ∀ member ∈ m.page p place.plan.info.collection link place.plan.info.scope,
          place.plan.Resolves m p member) := by
  rw [resolveMany_eq]
  refine settles_get ?_
  cases hfiled : memo.page? place.plan.info.id (some e.id) with
  | some page =>
    -- a hit: the page that is filed is the one that this link leads to
    obtain ⟨link', hlink', hkept⟩ := h.page hplace hreferrer he hfiled
    cases hlink.symm.trans hlink'
    obtain rfl := hkept.eq
    have hhit : eval m.reply (do
          modify fun memo => { memo with hits := memo.hits + 1 }
          return place.plan.fetchedPage m p link) memo
        = (.ok (place.plan.fetchedPage m p link), { memo with hits := memo.hits + 1 }) := rfl
    have le : memo.Le { memo with hits := memo.hits + 1 } := ⟨fun hf => hf, fun hp => hp⟩
    refine (settles_of_eval hhit (h.count _ _ _) le ?_).imp (fun _ _ hholds => hholds)
      ⟨fun _ => ⟨hkept.granted, hkept.resolves⟩, fun _ => trivial⟩
    exact ⟨hfiled, fun member hmember => (hkept.covers member hmember).mono le⟩
  | none =>
    -- a miss: the page is fetched, and filed for the referring document
    have hpage := settles_fetchPage hm on h place hexpand link
    have hfile : ∀ memo', Memo.Faithful m p layout memo' →
        Memo.KeepsPage m p memo' place.plan link (place.plan.fetchedPage m p link) →
        Settles m p layout memo' (do
            modify fun memo => { memo with
              pages := ((place.plan.info.id, some e.id), place.plan.fetchedPage m p link)
                :: memo.pages }
            return place.plan.fetchedPage m p link)
          (place.plan.fetchedPage m p link)
          (fun memo => memo.page? place.plan.info.id (some e.id)
            = some (place.plan.fetchedPage m p link)) True := by
      intro memo' h' hkeeps
      have heval : eval m.reply (do
            modify fun memo => { memo with
              pages := ((place.plan.info.id, some e.id), place.plan.fetchedPage m p link)
                :: memo.pages }
            return place.plan.fetchedPage m p link) memo'
          = (.ok (place.plan.fetchedPage m p link),
            memo'.addPage place.plan.info.id (some e.id) (place.plan.fetchedPage m p link)) := rfl
      obtain ⟨le, hfaithful⟩ := h'.addPage hm distinct place hplace hreferrer he hlink hkeeps
      refine settles_of_eval heval hfaithful le ?_
      rw [Memo.page?_addPage, if_pos ⟨rfl, rfl⟩]
    refine (hpage.bind (fun memo' h' _ hwell hcovers => hfile memo' h'
      ⟨rfl, hwell.1, hwell.2, hcovers⟩) ?_).imp (fun _ _ hboth => hboth.symm) (by simp)
    exact fun le hcovers member hmember => (hcovers member hmember).mono le

omit distinct in
/-- The page at the root of a plan, and what hangs below it, when nothing has been resolved. -/
theorem settles_resolveRoot (place : Plan.Place)
    (hexpand : ∀ e ∈ m.entities place.plan.info.collection, ∀ memo,
      Memo.Faithful m p layout memo →
        Settles m p layout memo (expand p place.plan (e.restrict place.plan.projection)) ()
          (fun memo => place.plan.Covers m p memo e) (place.plan.Resolves m p e))
    (link : Filter) :
    Settles m p layout .empty (resolveMany p place.plan (expand p place.plan) none link)
      (place.plan.fetchedPage m p link)
      (fun memo => ∀ member ∈ m.page p place.plan.info.collection link place.plan.info.scope,
        place.plan.Covers m p memo member)
      (p.refuses place.plan.info.collection (link ++ place.plan.info.scope.filter) = false ∧
        ∀ member ∈ m.page p place.plan.info.collection link place.plan.info.scope,
          place.plan.Resolves m p member) := by
  rw [resolveMany_eq]
  refine settles_get ?_
  have hfile : ∀ memo, Memo.Faithful m p layout memo → Settles m p layout memo (do
        modify fun memo => { memo with
          pages := ((place.plan.info.id, none), place.plan.fetchedPage m p link) :: memo.pages }
        return place.plan.fetchedPage m p link)
      (place.plan.fetchedPage m p link) (fun _ => True) True := by
    intro memo h
    obtain ⟨le, hfaithful⟩ :=
      h.addRootPage place.plan.info.id (place.plan.fetchedPage m p link)
    exact settles_of_eval rfl hfaithful le trivial
  refine ((settles_fetchPage hm on Memo.faithful_empty place hexpand link).bind
    (fun memo' h' _ _ _ => hfile memo' h') ?_).imp (fun _ _ hboth => hboth.1) (by simp)
  exact fun le hcovers member hmember => (hcovers member hmember).mono le

end Steps

/-- What a document refers to is seen in the fields that are fetched. -/
theorem linkFilter?_restrict {projection : Projection} {target : String}
    (h : projection.includes target = true) (collection : String) (e : Entity) :
    linkFilter? collection (e.restrict projection) target = linkFilter? collection e target := by
  rw [linkFilter?, linkFilter?, Entity.link_restrict_of_includes h, Entity.id_restrict]

open Plan (Resolves OnesResolve ManysResolve Covers CoversOnes CoversManys Placed AllPlaced
  Regular AllRegular)

mutual

/-- Following the references of a document fails exactly if something below it is refused, and
otherwise covers the document. -/
theorem settles_expand (hm : m.Identified) (distinct : m.Distinct) (on : m.offline = false) :
    ∀ (plan : Plan) {referrer : Option String}, plan.Regular → Placed layout referrer plan →
      ∀ e ∈ m.entities plan.info.collection, ∀ memo, Memo.Faithful m p layout memo →
        Settles m p layout memo (expand p plan (e.restrict plan.projection)) ()
          (fun memo => plan.Covers m p memo e) (plan.Resolves m p e)
  | .node info ones manys, referrer, hregular, hplaced, e, he, memo, h => by
    rw [expand]
    split
    · next hleaf =>
      -- nothing hangs below
      rw [Bool.and_eq_true, List.isEmpty_iff, List.isEmpty_iff] at hleaf
      obtain ⟨rfl, rfl⟩ := hleaf
      exact (settles_pure h ()).imp (fun _ _ _ => ⟨trivial, trivial⟩)
        ⟨fun _ => ⟨trivial, trivial⟩, fun _ => trivial⟩
    · refine settles_get ?_
      split
      · next hexpanded =>
        -- a document that has been followed here is covered by the memo
        obtain ⟨hresolves, hcovers⟩ := h.expanded hplaced.1 he hexpanded
        exact settles_of_eval rfl h (.refl memo) hcovers |>.imp (fun _ _ hholds => hholds)
          ⟨fun _ => hresolves, fun _ => trivial⟩
      · have hincluded : ∀ name ∈ ones.map Prod.fst ++ manys.map Prod.fst,
            (Plan.node info ones manys).projection.includes name = true := by
          intro name hname
          refine Plan.projection_includes (List.mem_append_left _ ?_)
          rw [List.append_assoc]
          exact List.mem_append_right _ hname
        have hones : ∀ memo, Memo.Faithful m p layout memo → Settles m p layout memo
            (followOnes p ones (e.restrict (Plan.node info ones manys).projection)) ()
            (fun memo => CoversOnes m p memo ones e) (OnesResolve m p ones e) := fun memo h =>
          settles_followOnes hm distinct on ones hregular.1.2 hplaced.2.1
            (fun pair hpair => hincluded _ (List.mem_append_left _ (List.mem_map_of_mem hpair)))
            e memo h
        have hmanys : ∀ memo, Memo.Faithful m p layout memo → Settles m p layout memo
            (followManys p info.collection manys
              (e.restrict (Plan.node info ones manys).projection)) ()
            (fun memo => CoversManys m p memo info.collection manys e)
            (ManysResolve m p info.collection manys e) := fun memo h =>
          settles_followManys hm distinct on info.collection manys hregular.2.2 hplaced.2.2
            (fun pair hpair => hincluded _ (List.mem_append_right _ (List.mem_map_of_mem hpair)))
            e he memo h
        have hnote : ∀ memo, Memo.Faithful m p layout memo →
            Resolves m p (.node info ones manys) e → Covers m p memo (.node info ones manys) e →
            Settles m p layout memo (modify fun memo => { memo with
              expanded := (info.id, e.id) :: memo.expanded }) () (fun _ => True) True := by
          intro memo h hresolves hcovers
          have hfaithful := h.addExpanded hm distinct ⟨.node info ones manys, referrer⟩ hplaced.1
            he hresolves hcovers
          exact settles_of_eval rfl hfaithful ⟨fun hf => hf, fun hp => hp⟩ trivial
        -- what the first part has covered stays covered during the second
        refine ((hones memo h).bind (fun memo₁ h₁ _ hwell₁ hcovers₁ =>
          (hmanys memo₁ h₁).bind (fun memo₂ h₂ le₂ hwell₂ hcovers₂ =>
            hnote memo₂ h₂ ⟨hwell₁, hwell₂⟩ ⟨CoversOnes.mono le₂ hcovers₁, hcovers₂⟩)
            fun le hcovers => CoversManys.mono le hcovers)
          fun le hcovers => CoversOnes.mono le hcovers).imp (fun memo' _ hall => ?_) ?_
        · exact ⟨hall.1, hall.2.1⟩
        · exact ⟨fun hall => ⟨hall.1, hall.2.1⟩, fun hall => ⟨hall.1, hall.2, trivial⟩⟩

theorem settles_followOnes (hm : m.Identified) (distinct : m.Distinct) (on : m.offline = false)
    {projection : Projection} : ∀ (ones : List (String × Plan)), AllRegular ones →
      AllPlaced layout none ones → (∀ pair ∈ ones, projection.includes pair.1 = true) →
      ∀ (e : Entity) (memo : Memo), Memo.Faithful m p layout memo →
        Settles m p layout memo (followOnes p ones (e.restrict projection)) ()
          (fun memo => CoversOnes m p memo ones e) (OnesResolve m p ones e)
  | [], _, _, _, e, memo, h => settles_pure h ()
  | (target, child) :: rest, hregular, hplaced, hincluded, e, memo, h => by
    have hrest : ∀ memo, Memo.Faithful m p layout memo → Settles m p layout memo
        (followOnes p rest (e.restrict projection)) ()
        (fun memo => CoversOnes m p memo rest e) (OnesResolve m p rest e) := fun memo h =>
      settles_followOnes hm distinct on rest hregular.2 hplaced.2
        (fun pair hpair => hincluded pair (List.mem_cons_of_mem _ hpair)) e memo h
    rw [followOnes, Entity.link_restrict_of_includes (hincluded _ (List.mem_cons_self ..))]
    split
    · next id hlink =>
      have hchild := settles_resolveOne hm on h ⟨child, none⟩ hplaced.1.root
        (settles_expand hm distinct on child hregular.1.2 hplaced.1) id
      rw [discard_eq]
      refine ((hchild.give ()).bind (fun memo' h' _ _ _ => hrest memo' h') ?_).imp
        (fun memo' _ hboth => ⟨fun id' hlink' => ?_, hboth.2⟩) ?_
      · exact fun le hholds =>
          ⟨le.entity hholds.1, fun found hfound => (hholds.2 found hfound).mono le⟩
      · cases hlink.symm.trans hlink'
        exact hboth.1
      · refine and_congr ⟨fun hwell id' hlink' => ?_, fun hwell => hwell id hlink⟩ Iff.rfl
        cases hlink.symm.trans hlink'
        exact hwell
    · next hnot =>
      refine (hrest memo h).imp (fun memo' _ hholds => ⟨fun id hlink => ?_, hholds⟩)
        ⟨fun hwell => ⟨fun id hlink => ?_, hwell⟩, fun hwell => hwell.2⟩
      · exact absurd hlink (hnot id)
      · exact absurd hlink (hnot id)

theorem settles_followManys (hm : m.Identified) (distinct : m.Distinct) (on : m.offline = false)
    {projection : Projection} : ∀ (collection : String) (manys : List (String × Plan)),
      AllRegular manys → AllPlaced layout (some collection) manys →
      (∀ pair ∈ manys, projection.includes pair.1 = true) →
      ∀ e ∈ m.entities collection, ∀ (memo : Memo), Memo.Faithful m p layout memo →
        Settles m p layout memo (followManys p collection manys (e.restrict projection)) ()
          (fun memo => CoversManys m p memo collection manys e)
          (ManysResolve m p collection manys e)
  | _, [], _, _, _, e, _, memo, h => settles_pure h ()
  | collection, (target, child) :: rest, hregular, hplaced, hincluded, e, he, memo, h => by
    have hrest : ∀ memo, Memo.Faithful m p layout memo → Settles m p layout memo
        (followManys p collection rest (e.restrict projection)) ()
        (fun memo => CoversManys m p memo collection rest e)
        (ManysResolve m p collection rest e) := fun memo h =>
      settles_followManys hm distinct on collection rest hregular.2 hplaced.2
        (fun pair hpair => hincluded pair (List.mem_cons_of_mem _ hpair)) e he memo h
    rw [followManys, linkFilter?_restrict (hincluded _ (List.mem_cons_self ..))]
    split
    · next link hlink =>
      have hlink' : linkFilter? collection e child.info.collection = some link := by
        rw [hregular.1.1]
        exact hlink
      have hchild := settles_resolveMany hm distinct on h ⟨child, some collection⟩
        hplaced.1.root rfl he hlink' (settles_expand hm distinct on child hregular.1.2 hplaced.1)
      rw [discard_eq, Entity.id_restrict]
      refine ((hchild.give ()).bind (fun memo' h' _ _ _ => hrest memo' h') ?_).imp
        (fun memo' _ hboth => ⟨fun other hother => ?_, hboth.2⟩) ?_
      · exact fun le hholds =>
          ⟨le.page hholds.1, fun member hmember => (hholds.2 member hmember).mono le⟩
      · cases hlink.symm.trans hother
        exact hboth.1
      · refine and_congr ⟨fun hwell other hother => ?_, fun hwell => hwell link hlink⟩ Iff.rfl
        cases hlink.symm.trans hother
        exact hwell
    · next hnone =>
      refine (hrest memo h).imp (fun memo' _ hholds => ⟨fun link hlink => ?_, hholds⟩)
        ⟨fun hwell => ⟨fun link hlink => ?_, hwell⟩, fun hwell => hwell.2⟩
      · cases hnone.symm.trans hlink
      · cases hnone.symm.trans hlink

end

end LinkedDocs.Pass
