import LinkedDocs.Proofs.Plan.Scopes

/-!
# What a plan serves

`Plan.Serves` says that a plan has all that a selector asks for: at every node the fields that are
read there, and along every reference a child, which for a many reference has an alike scope.
Sharing nodes between selectors loses nothing:

> `serves_of_load`: a plan that a selector has been loaded into serves it.

What is loaded later only adds (`Serves.mono`), so a plan serves all selectors that it was made of.
-/

namespace LinkedDocs.Plan

open Selector (scopes scopesOfSub scopesOfItems)

mutual

/-- All that a selector asks for is read at the node and below it. -/
def Serves : Selector → Plan → Prop
  | .wildcard, p => p.info.full = true
  | .field name, p => name ∈ p.info.fields
  | .list items, p => ServesItems items p
  | .one target sub, p => ∃ child, p.child? (.one target) = some child ∧ ServesSub sub child
  | .many target sub scope, p =>
    ∃ child, p.child? (.many target) = some child ∧ child.info.scope.Alike scope ∧
      ServesSub sub child

/-- All that is asked for at the end of a reference is read there. -/
def ServesSub : Option Selector → Plan → Prop
  | none, p => p.info.full = true
  | some selector, p => Serves selector p

/-- All that several selectors ask for is read at the node and below it. -/
def ServesItems : List Selector → Plan → Prop
  | [], _ => True
  | item :: items, p => Serves item p ∧ ServesItems items p

end

mutual

theorem Serves.mono : ∀ {selector : Selector} {p p' : Plan}, Extends p p' → Serves selector p →
    Serves selector p'
  | .wildcard, _, _, hext, h => hext.root.full h
  | .field name, _, _, hext, h => hext.root.fields name h
  | .list _, _, _, hext, h => ServesItems.mono hext h
  | .one _ _, _, _, hext, ⟨_, hchild, hsub⟩ => by
    obtain ⟨child', hchild', hext'⟩ := hext.child hchild
    exact ⟨child', hchild', ServesSub.mono hext' hsub⟩
  | .many _ _ _, _, _, hext, ⟨_, hchild, halike, hsub⟩ => by
    obtain ⟨child', hchild', hext'⟩ := hext.child hchild
    refine ⟨child', hchild', ?_, ServesSub.mono hext' hsub⟩
    rw [hext'.root.scope]
    exact halike

theorem ServesSub.mono : ∀ {sub : Option Selector} {p p' : Plan}, Extends p p' → ServesSub sub p →
    ServesSub sub p'
  | none, _, _, hext, h => hext.root.full h
  | some _, _, _, hext, h => Serves.mono hext h

theorem ServesItems.mono : ∀ {items : List Selector} {p p' : Plan}, Extends p p' →
    ServesItems items p → ServesItems items p'
  | [], _, _, _, _ => trivial
  | _ :: _, _, _, hext, ⟨hitem, hitems⟩ => ⟨Serves.mono hext hitem, ServesItems.mono hext hitems⟩

end

theorem full_readAll (p : Plan) : p.readAll.info.full = true := by
  cases p
  rfl

theorem child?_withChild_self (p child : Plan) (edge : Edge) :
    (p.withChild edge child).child? edge = some child := by
  rw [child?_withChild, if_pos rfl]

mutual

/-- A plan that a selector has been loaded into serves it. -/
theorem serves_of_load : ∀ {selector : Selector} {p p' : Plan} {n n' : Nat},
    load selector p n = .ok (p', n') → Fits p (scopes selector) → Serves selector p'
  | .wildcard, p, _, _, _, h, _ => by
    cases h
    exact full_readAll p
  | .field name, p, _, _, _, h, _ => by
    cases h
    cases p
    exact mem_insertName.mpr (.inl rfl)
  | .list _, _, _, _, _, h, hfits => serves_of_loadItems h hfits
  | .one target sub, p, _, n, _, h, hfits => by
    obtain ⟨child', hsub, rfl⟩ := of_load_one h
    exact ⟨child', child?_withChild_self p child' _, serves_of_loadSub hsub hfits.sub_one⟩
  | .many target sub scope, p, _, n, _, h, hfits => by
    obtain ⟨hsame, child', hsub, rfl⟩ := of_load_many h
    refine ⟨child', child?_withChild_self p child' _, ?_, serves_of_loadSub hsub hfits.sub_many⟩
    rw [(loadSub_extends hsub).root.scope]
    exact hfits.alike hsame

theorem serves_of_loadSub : ∀ {sub : Option Selector} {p p' : Plan} {n n' : Nat},
    loadSub sub p n = .ok (p', n') → Fits p (scopesOfSub sub) → ServesSub sub p'
  | none, p, _, _, _, h, _ => by
    cases h
    exact full_readAll p
  | some _, _, _, _, _, h, hfits => serves_of_load h hfits

theorem serves_of_loadItems : ∀ {items : List Selector} {p p' : Plan} {n n' : Nat},
    loadItems items p n = .ok (p', n') → Fits p (scopesOfItems items) → ServesItems items p'
  | [], _, _, _, _, _, _ => trivial
  | item :: items, _, _, _, _, h, hfits => by
    obtain ⟨q, k, hitem, hitems⟩ := of_loadItems_cons h
    exact ⟨(serves_of_load hitem hfits.first).mono (loadItems_extends hitems),
      serves_of_loadItems hitems (hfits.rest hitem)⟩

end

end LinkedDocs.Plan
