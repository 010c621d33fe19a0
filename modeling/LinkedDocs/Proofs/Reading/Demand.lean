import LinkedDocs.Proofs.Reading.Writing

/-!
# Nothing is resolved in vain

A pass follows every reference of its plan before anything is written, so it could fail over a
reference that no selector would have come to. It does not:

> `resolves_of_write`: if a selector can be read plainly from a document, then loading the selector
> into a plan adds nothing that is refused below that document.

The induction is on the selector. What loading adds hangs below the reference that the plain reading
follows there, for the documents that it comes to there.
-/

namespace LinkedDocs.Plan

open Selector (scopes scopesOfSub scopesOfItems)

variable {m : Memory} {p : Permission} {plan child : Plan} {e : Entity}

theorem resolves_leaf (id : Nat) (collection : String) (scope : Scope) (e : Entity) :
    (leaf id collection scope).Resolves m p e := ⟨trivial, trivial⟩

theorem Resolves.readAll (h : plan.Resolves m p e) : plan.readAll.Resolves m p e := by
  cases plan
  exact h

theorem Resolves.readField (h : plan.Resolves m p e) (name : String) :
    (plan.readField name).Resolves m p e := by
  cases plan
  exact h

/-- Putting a child in adds what hangs below the edge. -/
theorem Resolves.withOne {target : String} (h : plan.Resolves m p e)
    (hnew : ∀ id, e.link target = .single id → p.check child.info.collection id = true ∧
      ∀ found, m.entity? child.info.collection id = some found → child.Resolves m p found) :
    (plan.withChild (.one target) child).Resolves m p e := by
  cases plan
  refine ⟨onesResolve_iff.mpr fun pair hpair => ?_, h.2⟩
  rcases mem_putSorted hpair with rfl | hold
  · exact hnew
  · exact onesResolve_iff.mp h.1 pair hold

theorem Resolves.withMany {target : String} (h : plan.Resolves m p e)
    (hnew : ∀ link, Pass.linkFilter? plan.info.collection e target = some link →
      p.refuses child.info.collection (link ++ child.info.scope.filter) = false ∧
        ∀ member ∈ m.page p child.info.collection link child.info.scope,
          child.Resolves m p member) :
    (plan.withChild (.many target) child).Resolves m p e := by
  cases plan
  refine ⟨h.1, manysResolve_iff.mpr fun pair hpair => ?_⟩
  rcases mem_putSorted hpair with rfl | hold
  · exact hnew
  · exact manysResolve_iff.mp h.2 pair hold

/-- The child that is loaded into at an edge of a regular plan. -/
theorem Regular.enter (h : plan.Regular) (edge : Edge) (scope : Scope) (n : Nat) :
    (plan.enter edge scope n).1.info.collection = edge.target ∧
      (plan.enter edge scope n).1.Regular := by
  cases hchild : plan.child? edge with
  | some child =>
    rw [enter_of_some hchild]
    exact h.child hchild
  | none =>
    rw [enter_of_none hchild]
    exact ⟨rfl, regular_leaf n edge.target scope⟩

/-- Nothing hangs below the child that is loaded into but what hung there before. -/
theorem Resolves.enterOne {target id : String} {found : Entity} (h : plan.Resolves m p e)
    (hregular : plan.Regular) (hlink : e.link target = .single id)
    (hfound : m.entity? target id = some found) (scope : Scope) (n : Nat) :
    (plan.enter (.one target) scope n).1.Resolves m p found := by
  cases hchild : plan.child? (.one target) with
  | some child =>
    rw [enter_of_some hchild]
    have hcollection : child.info.collection = target := (hregular.child hchild).1
    exact (h.one hchild hlink).2 found (by rw [hcollection, hfound])
  | none =>
    rw [enter_of_none hchild]
    exact resolves_leaf n target scope found

theorem Resolves.enterMany {target : String} {link : Filter} {scope : Scope} {n : Nat}
    {member : Entity} (h : plan.Resolves m p e) (hregular : plan.Regular)
    (hlink : Pass.linkFilter? plan.info.collection e target = some link)
    (hmember : member ∈ m.page p target link (plan.enter (.many target) scope n).1.info.scope) :
    (plan.enter (.many target) scope n).1.Resolves m p member := by
  cases hchild : plan.child? (.many target) with
  | some child =>
    rw [enter_of_some hchild] at hmember ⊢
    have hcollection : child.info.collection = target := (hregular.child hchild).1
    exact (h.many hchild hlink).2 member (by rwa [hcollection])
  | none =>
    rw [enter_of_none hchild]
    exact resolves_leaf n target scope member

mutual

/-- What loading a selector adds below a document is granted if the selector can be read plainly. -/
theorem resolves_of_write (hm : m.Identified) (on : m.offline = false) :
    ∀ (selector : Selector) {plan plan' : Plan} {n n' : Nat},
      load selector plan n = .ok (plan', n') → Fits plan (scopes selector) → plan.Regular →
      ∀ {e : Entity} {start : String} {out written : Fields},
        Plain.write m p selector plan.info.collection e start out = some written →
        plan.Resolves m p e → plan'.Resolves m p e
  | .wildcard, _, _, _, _, hload, _, _, _, _, _, _, _, h => by
    cases hload
    exact h.readAll
  | .field name, _, _, _, _, hload, _, _, _, _, _, _, _, h => by
    cases hload
    exact h.readField name
  | .list items, _, _, _, _, hload, hfits, hregular, _, _, _, _, hwrite, h => by
    rw [Plain.write] at hwrite
    exact resolves_of_writeItems hm on items hload hfits hregular hwrite h
  | .one target sub, plan, _, n, _, hload, hfits, hregular, e, start, out, written, hwrite, h => by
    obtain ⟨child', hsub, rfl⟩ := of_load_one hload
    obtain ⟨hcollection, hregular'⟩ :
        (plan.enter (.one target) .unrestricted n).1.info.collection = target ∧ _ :=
      hregular.enter (.one target) .unrestricted n
    have hcollection' : child'.info.collection = target :=
      (loadSub_extends hsub).root.collection.trans hcollection
    refine h.withOne fun id hlink => ?_
    rw [Plain.write, hlink] at hwrite
    dsimp only at hwrite
    rw [Plain.document_eq hm on] at hwrite
    rw [hcollection']
    split at hwrite
    · next hcheck =>
      -- what is found is written further, so nothing below it is refused
      refine ⟨hcheck, fun found hfound => ?_⟩
      rw [hfound] at hwrite
      have hread : Plain.writeOne m p sub
          (plan.enter (.one target) .unrestricted n).1.info.collection found
          (start ++ Selector.sign false target) out = some written := by
        rw [hcollection]
        exact hwrite
      exact resolves_of_writeOne hm on sub hsub hfits.sub_one hregular' hread
        (h.enterOne hregular hlink hfound .unrestricted n)
    · cases hwrite
  | .many target sub scope, plan, _, n, _, hload, hfits, hregular, e, start, out, written, hwrite,
      h => by
    obtain ⟨hsame, child', hsub, rfl⟩ := of_load_many hload
    obtain ⟨hcollection, hregular'⟩ :
        (plan.enter (.many target) scope n).1.info.collection = target ∧ _ :=
      hregular.enter (.many target) scope n
    -- the node has a scope of its own, but picks the page that is read plainly
    have halike := hfits.alike (n := n) hsame
    have hroot := (loadSub_extends hsub).root
    have hcollection' : child'.info.collection = target := hroot.collection.trans hcollection
    refine h.withMany fun link hlink => ?_
    rw [Plain.write, hlink] at hwrite
    dsimp only at hwrite
    rw [Plain.page_eq hm on, ← halike.refuses, ← halike.page] at hwrite
    rw [hcollection', hroot.scope]
    split at hwrite
    · cases hwrite
    · next hgranted =>
      refine ⟨Bool.not_eq_true _ |>.mp hgranted, ?_⟩
      have hread : Plain.writeMany m p sub (plan.enter (.many target) scope n).1.info.collection
          (m.page p target link (plan.enter (.many target) scope n).1.info.scope)
          (start ++ Selector.sign true target) out = some written := by
        rw [hcollection]
        exact hwrite
      exact resolves_of_writeMany hm on sub hsub hfits.sub_many hregular' hread
        fun member hmember => h.enterMany hregular hlink hmember

theorem resolves_of_writeItems (hm : m.Identified) (on : m.offline = false) :
    ∀ (items : List Selector) {plan plan' : Plan} {n n' : Nat},
      loadItems items plan n = .ok (plan', n') → Fits plan (scopesOfItems items) → plan.Regular →
      ∀ {e : Entity} {start : String} {out written : Fields},
        Plain.writeItems m p items plan.info.collection e start out = some written →
        plan.Resolves m p e → plan'.Resolves m p e
  | [], _, _, _, _, hload, _, _, _, _, _, _, _, h => by
    cases hload
    exact h
  | item :: items, plan, _, _, _, hload, hfits, hregular, e, start, out, written, hwrite, h => by
    obtain ⟨q, k, hitem, hitems⟩ := of_loadItems_cons hload
    rw [Plain.writeItems, Option.bind_eq_bind, Option.bind_eq_some_iff] at hwrite
    obtain ⟨between, hfirst, hrest⟩ := hwrite
    have hq := resolves_of_write hm on item hitem hfits.first hregular hfirst h
    rw [← (load_extends hitem).root.collection] at hrest
    exact resolves_of_writeItems hm on items hitems (hfits.rest hitem)
      (load_preserves chain_numbers item hitem hregular).regular hrest hq

theorem resolves_of_writeOne (hm : m.Identified) (on : m.offline = false) :
    ∀ (sub : Option Selector) {child child' : Plan} {n n' : Nat},
      loadSub sub child n = .ok (child', n') → Fits child (scopesOfSub sub) → child.Regular →
      ∀ {found : Entity} {key : String} {out written : Fields},
        Plain.writeOne m p sub child.info.collection found key out = some written →
        child.Resolves m p found → child'.Resolves m p found
  | none, _, _, _, _, hload, _, _, _, _, _, _, _, h => by
    cases hload
    exact h.readAll
  | some sub, child, _, _, _, hload, hfits, hregular, found, key, out, written, hwrite, h => by
    have hresolves := fun {start out written} (hwrite : Plain.write m p sub child.info.collection
        found start out = some written) =>
      resolves_of_write hm on sub hload hfits hregular hwrite h
    cases sub with
    | wildcard =>
      cases hload
      exact h.readAll
    | list items =>
      rw [Plain.writeOne, Option.bind_eq_bind, Option.bind_eq_some_iff] at hwrite
      obtain ⟨object, hobject, -⟩ := hwrite
      rw [← Plain.write] at hobject
      exact hresolves hobject
    | field | one | many => exact hresolves hwrite

theorem resolves_of_writeMany (hm : m.Identified) (on : m.offline = false) :
    ∀ (sub : Option Selector) {child child' : Plan} {n n' : Nat},
      loadSub sub child n = .ok (child', n') → Fits child (scopesOfSub sub) → child.Regular →
      ∀ {members : List Entity} {key : String} {out written : Fields},
        Plain.writeMany m p sub child.info.collection members key out = some written →
        (∀ member ∈ members, child.Resolves m p member) →
          ∀ member ∈ members, child'.Resolves m p member
  | none, _, _, _, _, hload, _, _, _, _, _, _, _, h => by
    cases hload
    exact fun member hmember => (h member hmember).readAll
  | some sub, child, child', _, _, hload, hfits, hregular, members, key, out, written, hwrite,
      h => by
    have hresolves : ∀ start {objects}, members.mapM (fun member =>
          Plain.write m p sub child.info.collection member start .empty) = some objects →
        ∀ member ∈ members, child'.Resolves m p member := by
      intro start objects hall member hmember
      obtain ⟨object, hobject⟩ := exists_of_mapM hall hmember
      exact resolves_of_write hm on sub hload hfits hregular hobject (h member hmember)
    cases sub with
    | wildcard =>
      cases hload
      exact fun member hmember => (h member hmember).readAll
    | field name =>
      cases hload
      exact fun member hmember => (h member hmember).readField name
    | list items =>
      rw [Plain.writeMany, Option.bind_eq_bind, Option.bind_eq_some_iff] at hwrite
      obtain ⟨objects, hobjects, -⟩ := hwrite
      exact hresolves "" hobjects
    | one | many =>
      simp only [Plain.writeMany, Option.bind_eq_bind, Option.bind_eq_some_iff] at hwrite
      obtain ⟨objects, hobjects, -⟩ := hwrite
      exact hresolves (key ++ ".") hobjects

end

end LinkedDocs.Plan
