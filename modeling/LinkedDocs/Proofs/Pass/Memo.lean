import LinkedDocs.Proofs.Pass.Resolution

/-!
# What a pass remembers

A memo files what has been resolved under numbers of nodes, and a hit saves a step of the pass. That
this changes nothing is an invariant, `Memo.Faithful`: whatever is filed at a place of the plan is
what the store has there, and where the references of a document have been followed, the memo covers
all that hangs below it. Steps only add to a memo (`Memo.Le`).

`Pass.Settles` is the form of all statements about steps: a step either fails, where it must, or
gives the one result that it can give and leaves a faithful memo with more in it.
-/

namespace LinkedDocs

namespace Memo

/-- The second memo holds all that the first one holds below the root. -/
structure Le (memo memo' : Memo) : Prop where
  entity : ∀ {node id found}, memo.entity? node id = some found →
    memo'.entity? node id = some found
  page : ∀ {node parent page}, memo.page? node (some parent) = some page →
    memo'.page? node (some parent) = some page

theorem Le.refl (memo : Memo) : Le memo memo := ⟨fun h => h, fun h => h⟩

theorem Le.trans {a b c : Memo} (h : Le a b) (h' : Le b c) : Le a c :=
  ⟨fun hf => h'.entity (h.entity hf), fun hp => h'.page (h.page hp)⟩

/-- Files a document. -/
def addEntity (memo : Memo) (node : Nat) (id : String) (found : Option Entity) : Memo :=
  { memo with entities := ((node, id), found) :: memo.entities }

/-- Files a page. -/
def addPage (memo : Memo) (node : Nat) (parent : Option String) (page : List Entity) : Memo :=
  { memo with pages := ((node, parent), page) :: memo.pages }

/-- Notes that the references of a document have been followed. -/
def addExpanded (memo : Memo) (node : Nat) (id : String) : Memo :=
  { memo with expanded := (node, id) :: memo.expanded }

theorem entity?_addEntity (memo : Memo) (node other : Nat) (id id' : String)
    (found : Option Entity) :
    (memo.addEntity node id found).entity? other id'
      = if other = node ∧ id' = id then some found else memo.entity? other id' := by
  unfold Memo.entity? addEntity
  rw [List.lookup_cons]
  by_cases h : other = node ∧ id' = id
  · obtain ⟨rfl, rfl⟩ := h
    simp
  · rw [if_neg h, beq_false_of_ne]
    rintro heq
    cases heq
    exact h ⟨rfl, rfl⟩

theorem page?_addPage (memo : Memo) (node other : Nat) (parent parent' : Option String)
    (page : List Entity) :
    (memo.addPage node parent page).page? other parent'
      = if other = node ∧ parent' = parent then some page else memo.page? other parent' := by
  unfold Memo.page? addPage
  rw [List.lookup_cons]
  by_cases h : other = node ∧ parent' = parent
  · obtain ⟨rfl, rfl⟩ := h
    simp
  · rw [if_neg h, beq_false_of_ne]
    rintro heq
    cases heq
    exact h ⟨rfl, rfl⟩

theorem isExpanded_addExpanded {memo : Memo} {node other : Nat} {id id' : String}
    (h : (memo.addExpanded node id).isExpanded other id' = true) :
    (other = node ∧ id' = id) ∨ memo.isExpanded other id' = true := by
  unfold Memo.isExpanded addExpanded at h
  simpa [Memo.isExpanded] using h

end Memo

namespace Plan

variable {m : Memory} {p : Permission} {memo memo' : Memo}

mutual

/-- A memo with more in it covers as much. -/
theorem Covers.mono (h : memo.Le memo') : ∀ {plan : Plan} {e : Entity},
    Covers m p memo plan e → Covers m p memo' plan e
  | .node _ _ _, _, ⟨hones, hmanys⟩ => ⟨CoversOnes.mono h hones, CoversManys.mono h hmanys⟩

theorem CoversOnes.mono (h : memo.Le memo') : ∀ {ones : List (String × Plan)} {e : Entity},
    CoversOnes m p memo ones e → CoversOnes m p memo' ones e
  | [], _, _ => trivial
  | (_, _) :: _, _, ⟨hfirst, hrest⟩ =>
    ⟨fun id hlink => ⟨h.entity (hfirst id hlink).1,
      fun found hfound => Covers.mono h ((hfirst id hlink).2 found hfound)⟩,
      CoversOnes.mono h hrest⟩

theorem CoversManys.mono (h : memo.Le memo') :
    ∀ {collection : String} {manys : List (String × Plan)} {e : Entity},
      CoversManys m p memo collection manys e → CoversManys m p memo' collection manys e
  | _, [], _, _ => trivial
  | _, (_, _) :: _, _, ⟨hfirst, hrest⟩ =>
    ⟨fun link hlink => ⟨h.page (hfirst link hlink).1,
      fun member hmember => Covers.mono h ((hfirst link hlink).2 member hmember)⟩,
      CoversManys.mono h hrest⟩

end

end Plan

namespace Memo

section Faithful

variable (m : Memory) (p : Permission)

/-- The page is the one that a link leads to, and the memo covers all that hangs below it. -/
structure KeepsPage (memo : Memo) (plan : Plan) (link : Filter) (page : List Entity) : Prop where
  eq : page = plan.fetchedPage m p link
  granted : p.refuses plan.info.collection (link ++ plan.info.scope.filter) = false
  resolves : ∀ member ∈ m.page p plan.info.collection link plan.info.scope,
    plan.Resolves m p member
  covers : ∀ member ∈ m.page p plan.info.collection link plan.info.scope,
    plan.Covers m p memo member

variable (layout : Plan.Layout)

/-- What is filed at the places of a plan is what the store has there. -/
structure Faithful (memo : Memo) : Prop where
  entity : ∀ {node place id found}, layout node = some place →
    memo.entity? node id = some found → found = place.plan.fetched m id
  page : ∀ {node place collection e page}, layout node = some place →
    place.referrer = some collection → e ∈ m.entities collection →
    memo.page? node (some e.id) = some page →
      ∃ link, Pass.linkFilter? collection e place.plan.info.collection = some link ∧
        KeepsPage m p memo place.plan link page
  expanded : ∀ {node place e}, layout node = some place →
    e ∈ m.entities place.plan.info.collection → memo.isExpanded node e.id = true →
      place.plan.Resolves m p e ∧ place.plan.Covers m p memo e

end Faithful

variable {m : Memory} {p : Permission} {layout : Plan.Layout} {memo memo' : Memo}

theorem KeepsPage.mono (h : memo.Le memo') {plan : Plan} {link : Filter} {page : List Entity}
    (hpage : KeepsPage m p memo plan link page) : KeepsPage m p memo' plan link page :=
  ⟨hpage.eq, hpage.granted, hpage.resolves, fun member hmember =>
    (hpage.covers member hmember).mono h⟩

/-- Nothing is filed before the first step. -/
theorem faithful_empty : Faithful m p layout .empty :=
  ⟨fun _ h => by simp [entity?, empty] at h, fun _ _ _ h => by simp [page?, empty] at h,
    fun _ _ h => by simp [isExpanded, empty] at h⟩

/-- A memo that has grown is faithful if what is new in it is. -/
theorem Faithful.grow (h : Faithful m p layout memo) (le : memo.Le memo')
    (entity : ∀ {node place id found}, layout node = some place →
      memo'.entity? node id = some found → memo.entity? node id = some found ∨
        found = place.plan.fetched m id)
    (page : ∀ {node place collection e page}, layout node = some place →
      place.referrer = some collection → e ∈ m.entities collection →
      memo'.page? node (some e.id) = some page → memo.page? node (some e.id) = some page ∨
        ∃ link, Pass.linkFilter? collection e place.plan.info.collection = some link ∧
          KeepsPage m p memo' place.plan link page)
    (expanded : ∀ {node place e}, layout node = some place →
      e ∈ m.entities place.plan.info.collection → memo'.isExpanded node e.id = true →
        memo.isExpanded node e.id = true ∨
          (place.plan.Resolves m p e ∧ place.plan.Covers m p memo' e)) :
    Faithful m p layout memo' where
  entity hplace hfound := (entity hplace hfound).elim (h.entity hplace) id
  page hplace hreferrer he hpage :=
    (page hplace hreferrer he hpage).elim
      (fun hold =>
        let ⟨link, hlink, hkeeps⟩ := h.page hplace hreferrer he hold
        ⟨link, hlink, hkeeps.mono le⟩) id
  expanded hplace he hexpanded :=
    (expanded hplace he hexpanded).elim
      (fun hold => ⟨(h.expanded hplace he hold).1, (h.expanded hplace he hold).2.mono le⟩) id

/-- The counts are free. -/
theorem Faithful.count (h : Faithful m p layout memo) (gets finds hits : Nat) :
    Faithful m p layout { memo with gets := gets, finds := finds, hits := hits } :=
  h.grow ⟨fun hf => hf, fun hp => hp⟩ (fun _ hf => .inl hf) (fun _ _ _ hp => .inl hp)
    fun _ _ he => .inl he

theorem le_addEntity {node : Nat} {id : String} (hfresh : memo.entity? node id = none)
    (found : Option Entity) : memo.Le (memo.addEntity node id found) where
  entity := by
    intro other id' old hold
    rw [entity?_addEntity]
    split
    · next heq =>
      obtain ⟨rfl, rfl⟩ := heq
      rw [hfresh] at hold
      cases hold
    · exact hold
  page hpage := hpage

theorem le_addPage {node : Nat} {parent : Option String} {page : List Entity}
    (hsame : ∀ id old, parent = some id → memo.page? node (some id) = some old → old = page) :
    memo.Le (memo.addPage node parent page) where
  entity hfound := hfound
  page := by
    intro other id old hold
    rw [page?_addPage]
    split
    · next heq =>
      obtain ⟨rfl, hid⟩ := heq
      rw [hsame id old hid.symm hold]
    · exact hold

/-- Filing the document that the store has. -/
theorem Faithful.addEntity (h : Faithful m p layout memo) (place : Plan.Place) {id : String}
    (hplace : layout place.plan.info.id = some place)
    (hfresh : memo.entity? place.plan.info.id id = none) :
    Faithful m p layout (memo.addEntity place.plan.info.id id (place.plan.fetched m id)) := by
  refine h.grow (le_addEntity hfresh _) ?_ (fun _ _ _ hp => .inl hp) fun _ _ he => .inl he
  intro node place' id' found hplace' hfound
  rw [entity?_addEntity] at hfound
  split at hfound
  · next heq =>
    obtain ⟨rfl, rfl⟩ := heq
    obtain rfl : place = place' := by simpa [hplace] using hplace'
    exact .inr (Option.some.inj hfound).symm
  · exact .inl hfound

/-- Filing the page that a document refers to. -/
theorem Faithful.addPage (h : Faithful m p layout memo) (hm : m.Identified) (distinct : m.Distinct)
    (place : Plan.Place) {collection : String} {e : Entity} {link : Filter} {page : List Entity}
    (hplace : layout place.plan.info.id = some place) (hreferrer : place.referrer = some collection)
    (he : e ∈ m.entities collection)
    (hlink : Pass.linkFilter? collection e place.plan.info.collection = some link)
    (hpage : KeepsPage m p memo place.plan link page) :
    memo.Le (memo.addPage place.plan.info.id (some e.id) page) ∧
      Faithful m p layout (memo.addPage place.plan.info.id (some e.id) page) := by
  have le : memo.Le (memo.addPage place.plan.info.id (some e.id) page) := by
    -- a page that is filed there already is the same one
    refine le_addPage fun id old hid hold => ?_
    rw [← hid] at hold
    obtain ⟨link', hlink', hkeeps⟩ := h.page hplace hreferrer he hold
    cases hlink.symm.trans hlink'
    exact hkeeps.eq.trans hpage.eq.symm
  refine ⟨le, h.grow le (fun _ hf => .inl hf) ?_ fun _ _ hx => .inl hx⟩
  intro node place' collection' e' page' hplace' hreferrer' he' hpage'
  rw [page?_addPage] at hpage'
  split at hpage'
  · next heq =>
    obtain ⟨rfl, hid⟩ := heq
    obtain rfl : place = place' := by simpa [hplace] using hplace'
    obtain rfl : collection = collection' := by simpa [hreferrer] using hreferrer'
    -- the referring document is known by its id
    obtain rfl : e' = e := distinct.eq_of_id_eq hm he' he (Option.some.inj hid)
    obtain rfl : page = page' := Option.some.inj hpage'
    exact .inr ⟨link, hlink, hpage.mono le⟩
  · exact .inl hpage'

/-- Filing the root page. No document refers to it. -/
theorem Faithful.addRootPage (h : Faithful m p layout memo) (node : Nat) (page : List Entity) :
    memo.Le (memo.addPage node none page) ∧ Faithful m p layout (memo.addPage node none page) := by
  have le : memo.Le (memo.addPage node none page) := le_addPage fun _ _ hid _ => by cases hid
  refine ⟨le, h.grow le (fun _ hf => .inl hf) (fun _ _ _ hpage => ?_) fun _ _ hx => .inl hx⟩
  rw [page?_addPage, if_neg (by simp)] at hpage
  exact .inl hpage

/-- Noting that the references of a document have been followed. -/
theorem Faithful.addExpanded (h : Faithful m p layout memo) (hm : m.Identified)
    (distinct : m.Distinct) (place : Plan.Place) {e : Entity}
    (hplace : layout place.plan.info.id = some place)
    (he : e ∈ m.entities place.plan.info.collection) (hresolves : place.plan.Resolves m p e)
    (hcovers : place.plan.Covers m p memo e) :
    Faithful m p layout (memo.addExpanded place.plan.info.id e.id) := by
  have le : memo.Le (memo.addExpanded place.plan.info.id e.id) := ⟨fun hf => hf, fun hp => hp⟩
  refine h.grow le (fun _ hf => .inl hf) (fun _ _ _ hp => .inl hp) ?_
  intro node place' e' hplace' he' hexpanded
  rcases isExpanded_addExpanded hexpanded with ⟨rfl, hid⟩ | hold
  · obtain rfl : place = place' := by simpa [hplace] using hplace'
    obtain rfl : e' = e := distinct.eq_of_id_eq hm he' he hid
    exact .inr ⟨hresolves, hcovers.mono le⟩
  · exact .inl hold

end Memo

namespace Pass

section Settles

variable (m : Memory) (p : Permission) (layout : Plan.Layout)

/-- From the memo, the step fails if it must, and otherwise gives its one result and leaves a
faithful memo that holds more. -/
def Settles {α : Type} (memo : Memo) (step : Pass α) (result : α) (holds : Memo → Prop)
    (goesWell : Prop) : Prop :=
  match eval m.reply step memo with
  | (.ok a, memo') =>
    a = result ∧ goesWell ∧ Memo.Faithful m p layout memo' ∧ memo.Le memo' ∧ holds memo'
  | (.error _, _) => ¬ goesWell

end Settles

variable {m : Memory} {p : Permission} {layout : Plan.Layout} {memo : Memo} {α β : Type}

theorem settles_pure (h : Memo.Faithful m p layout memo) (a : α) :
    Settles m p layout memo (pure a) a (fun _ => True) True := by
  unfold Settles
  rw [eval_pure]
  exact ⟨rfl, trivial, h, .refl memo, trivial⟩

theorem settles_throw (error : QueryError) {a : α} {holds : Memo → Prop} {goesWell : Prop}
    (h : ¬ goesWell) : Settles m p layout memo (throw error) a holds goesWell := h

theorem Settles.imp {step : Pass α} {a : α} {holds holds' : Memo → Prop} {goesWell goesWell' : Prop}
    (h : Settles m p layout memo step a holds goesWell)
    (himp : ∀ memo', goesWell → holds memo' → holds' memo') (hiff : goesWell ↔ goesWell') :
    Settles m p layout memo step a holds' goesWell' := by
  unfold Settles at h ⊢
  split at h
  · obtain ⟨ha, hwell, hfaithful, hle, hholds⟩ := h
    exact ⟨ha, hiff.mp hwell, hfaithful, hle, himp _ hwell hholds⟩
  · exact fun hwell => h (hiff.mpr hwell)

/-- A step that settles and has a result has nothing in it that is refused. -/
theorem Settles.goesWell_of_ok {step : Pass α} {a found : α} {holds : Memo → Prop}
    {goesWell : Prop} (h : Settles m p layout memo step a holds goesWell)
    (hok : (eval m.reply step memo).1 = .ok found) : goesWell := by
  unfold Settles at h
  split at h
  · exact h.2.1
  · next error memo' heval =>
    rw [heval] at hok
    cases hok

/-- A step that settles and has nothing in it that is refused comes to its result. -/
theorem Settles.exists_memo {step : Pass α} {a : α} {holds : Memo → Prop} {goesWell : Prop}
    (h : Settles m p layout memo step a holds goesWell) (hwell : goesWell) :
    ∃ memo', eval m.reply step memo = (.ok a, memo') ∧ Memo.Faithful m p layout memo' ∧
      holds memo' := by
  unfold Settles at h
  split at h
  · next found memo' heval =>
    obtain ⟨rfl, -, hfaithful, -, hholds⟩ := h
    exact ⟨memo', heval, hfaithful, hholds⟩
  · exact absurd hwell h

/-- One step after another. -/
theorem Settles.bind {step : Pass α} {next : α → Pass β} {a : α} {b : β}
    {holds holds' : Memo → Prop} {goesWell goesWell' : Prop}
    (h : Settles m p layout memo step a holds goesWell)
    (hnext : ∀ memo', Memo.Faithful m p layout memo' → memo.Le memo' → goesWell → holds memo' →
      Settles m p layout memo' (next a) b holds' goesWell')
    (mono : ∀ {memo₁ memo₂ : Memo}, memo₁.Le memo₂ → holds memo₁ → holds memo₂) :
    Settles m p layout memo (step >>= next) b (fun memo => holds memo ∧ holds' memo)
      (goesWell ∧ goesWell') := by
  unfold Settles at h ⊢
  rw [eval_bind]
  generalize eval m.reply step memo = ended at h ⊢
  obtain ⟨result, memo'⟩ := ended
  cases result with
  | ok a' =>
    obtain ⟨rfl, hwell, hfaithful, hle, hholds⟩ := h
    have hsecond := hnext memo' hfaithful hle hwell hholds
    unfold Settles at hsecond
    dsimp only
    generalize eval m.reply (next a') memo' = ended' at hsecond ⊢
    obtain ⟨result', memo''⟩ := ended'
    cases result' with
    | ok b' =>
      obtain ⟨rfl, hwell', hfaithful', hle', hholds'⟩ := hsecond
      exact ⟨rfl, ⟨hwell, hwell'⟩, hfaithful', hle.trans hle', mono hle' hholds, hholds'⟩
    | error error => exact fun hboth => hsecond hboth.2
  | error error => exact fun hboth => h hboth.1

/-- A step that looks at the memo. -/
theorem settles_get {next : Memo → Pass β} {b : β} {holds : Memo → Prop} {goesWell : Prop}
    (h : Settles m p layout memo (next memo) b holds goesWell) :
    Settles m p layout memo (get >>= next) b holds goesWell := by
  unfold Settles at h ⊢
  rw [eval_bind, eval_get]
  exact h

end Pass

end LinkedDocs
