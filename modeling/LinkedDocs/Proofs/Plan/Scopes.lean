import LinkedDocs.Proofs.Permission.Narrowing
import LinkedDocs.Proofs.Plan.Nodes

/-!
# Scopes that share a node

Many references on one path share a node of the plan, and the scope that is searched with is that of
the first one. `Scope.same` sees to it that the scopes are the same, except that it takes the two
zeros for one, while a filter, which compares scalars by their text, does not. Where the texts are
the same too, this makes no difference:

> `Filter.Alike.equivalent`: filters that are the same, text by text, pick the same documents and
> are refused to the same callers.

`Plan.Fits` says of the many references that are to be loaded into a plan that where those on one
path are the same, they are equivalent. It goes down with loading from a reference to what stands
below it, and on from one item to the next.
-/

namespace LinkedDocs

/-- The texts of the scalars that a field is tested for. -/
def Test.texts : Test → List (Option String)
  | .equals value => [value.scalarText?]
  | .isIn values => values.map Value.scalarText?
  | .glob _ => []

/-- The texts of the scalars in each condition. -/
def Filter.texts (filter : Filter) : List (List (Option String)) := filter.map (·.test.texts)

theorem Value.equalTo_congr {a b : Value} (hsame : a.same b = true)
    (htext : a.scalarText? = b.scalarText?) (value : Value) :
    a.equalTo value = b.equalTo value := by
  have hvalue : a.same value = b.same value := by
    rw [Value.same_iff] at hsame
    rw [Value.same, Value.same, hsame]
  unfold Value.equalTo
  rw [htext, hvalue]

/-- What tells tests apart: the values up to `Value.same`. -/
def Test.normal : Test → Test
  | .equals value => .equals value.normal
  | .isIn values => .isIn (values.map Value.normal)
  | .glob pattern => .glob pattern

theorem Test.same_iff (s t : Test) : s.same t = true ↔ s.normal = t.normal := by
  cases s with
  | equals a => cases t <;> simp [Test.same, Test.normal, Value.same_iff]
  | isIn as => cases t <;> simp [Test.same, Test.normal]
  | glob p =>
    cases t with
    | equals | isIn => simp [Test.same, Test.normal]
    | glob q =>
      simp only [Test.same, Test.normal, beq_iff_eq, Test.glob.injEq]
      exact ⟨Glob.Pattern.ext, congrArg _⟩

/-- What tells filters apart. -/
def Filter.normal (filter : Filter) : Filter := filter.map fun c => ⟨c.field, c.test.normal⟩

theorem Filter.same_iff : ∀ f g : Filter, f.same g = true ↔ f.normal = g.normal
  | [], [] => by simp [Filter.same]
  | [], _ :: _ => by simp [Filter.same, Filter.normal]
  | _ :: _, [] => by simp [Filter.same, Filter.normal]
  | c :: f, d :: g => by
    simp only [Filter.same, Condition.same, Bool.and_eq_true, beq_iff_eq, Test.same_iff,
      Filter.same_iff f g, Filter.normal, List.map_cons, List.cons.injEq, Condition.mk.injEq]

namespace Test

/-- Two tests are the same and have the same texts. -/
def Alike (s t : Test) : Prop := s.same t = true ∧ s.texts = t.texts

/-- Lists of values that are the same, with the same texts, are equal to the same values. -/
theorem any_equalTo_congr : ∀ {as bs : List Value}, as.map Value.normal = bs.map Value.normal →
    as.map Value.scalarText? = bs.map Value.scalarText? → ∀ value,
      as.any (·.equalTo value) = bs.any (·.equalTo value)
  | [], [], _, _, _ => rfl
  | [], _ :: _, h, _, _ => by simp at h
  | _ :: _, [], h, _, _ => by simp at h
  | a :: as, b :: bs, hnormal, htext, value => by
    obtain ⟨hfirst, hrest⟩ := List.cons_eq_cons.mp hnormal
    obtain ⟨hfirst', hrest'⟩ := List.cons_eq_cons.mp htext
    rw [List.any_cons, List.any_cons,
      Value.equalTo_congr ((Value.same_iff a b).mpr hfirst) hfirst' value,
      any_equalTo_congr hrest hrest' value]

theorem Alike.passes {s t : Test} (h : s.Alike t) (value : Value) :
    s.passes value = t.passes value := by
  obtain ⟨hsame, htexts⟩ := h
  cases s with
  | equals a =>
    cases t with
    | equals b => exact Value.equalTo_congr hsame (List.cons_eq_cons.mp htexts).1 value
    | isIn | glob => cases hsame
  | isIn as =>
    cases t with
    | isIn bs => exact any_equalTo_congr (of_decide_eq_true hsame) htexts value
    | equals | glob => cases hsame
  | glob p =>
    cases t with
    | glob q => rw [Glob.Pattern.ext (eq_of_beq hsame)]
    | equals | isIn => cases hsame

theorem Alike.wantsArray {s t : Test} (h : s.Alike t) : s.wantsArray = t.wantsArray := by
  obtain ⟨hsame, -⟩ := h
  cases s with
  | equals a =>
    cases t with
    | equals b =>
      have hnormal : a.normal = b.normal := (Value.same_iff a b).mp hsame
      cases a <;> cases b <;> simp_all [Test.wantsArray, Value.normal]
    | isIn | glob => cases hsame
  | isIn as =>
    cases t with
    | isIn bs => rfl
    | equals | glob => cases hsame
  | glob p =>
    cases t with
    | glob q => rfl
    | equals | isIn => cases hsame

theorem Alike.holds {s t : Test} (h : s.Alike t) (field : Option Value) :
    s.holds field = t.holds field := by
  have hpasses : s.passes = t.passes := funext h.passes
  unfold Test.holds
  rw [hpasses, h.wantsArray]

/-- Whether values are granted as ids is seen by their texts. -/
theorem any_not_allows (ids : List String) (values : List Value) :
    values.any (fun value => !Permission.allows ids value)
      = (values.map Value.scalarText?).any fun text => !(text.elim false ids.contains) := by
  rw [List.any_map]
  congr 1
  funext value
  unfold Permission.allows
  cases hv : value.scalarText? <;> simp [hv]

/-- Alike tests name ids alike. -/
theorem Alike.denies {s t : Test} (h : s.Alike t) (ids : List String) :
    ((Permission.named? s).getD []).any (fun value => !Permission.allows ids value)
      = ((Permission.named? t).getD []).any fun value => !Permission.allows ids value := by
  obtain ⟨hsame, htexts⟩ := h
  rw [any_not_allows, any_not_allows]
  cases s with
  | equals a =>
    cases t with
    | equals b => exact congrArg (List.any · _) htexts
    | isIn | glob => cases hsame
  | isIn as =>
    cases t with
    | isIn bs => exact congrArg (List.any · _) htexts
    | equals | glob => cases hsame
  | glob p =>
    cases t with
    | glob q => rfl
    | equals | isIn => cases hsame

end Test

namespace Filter

/-- Two filters are the same and have the same texts. -/
def Alike (f g : Filter) : Prop := f.same g = true ∧ f.texts = g.texts

theorem Alike.cons {c d : Condition} {f g : Filter} (h : Alike (c :: f) (d :: g)) :
    c.field = d.field ∧ c.test.Alike d.test ∧ Alike f g := by
  obtain ⟨hsame, htexts⟩ := h
  simp only [Filter.same, Condition.same, Bool.and_eq_true, beq_iff_eq] at hsame
  obtain ⟨hfirst, hrest⟩ := List.cons_eq_cons.mp htexts
  exact ⟨hsame.1.1, ⟨hsame.1.2, hfirst⟩, hsame.2, hrest⟩

theorem Alike.holds (e : Entity) : ∀ {f g : Filter}, f.Alike g → f.holds e = g.holds e
  | [], [], _ => rfl
  | [], _ :: _, h => by cases h.1
  | _ :: _, [], h => by cases h.1
  | c :: f, d :: g, h => by
    obtain ⟨hfield, htest, hrest⟩ := h.cons
    rw [holds_cons, holds_cons, Condition.holds, Condition.holds, hfield, htest.holds, hrest.holds]

theorem Alike.denies (p : Permission) (collection : String) :
    ∀ {f g : Filter}, f.Alike g →
      f.any (p.namesOutside collection) = g.any (p.namesOutside collection)
  | [], [], _ => rfl
  | [], _ :: _, h => by cases h.1
  | _ :: _, [], h => by cases h.1
  | c :: f, d :: g, h => by
    obtain ⟨hfield, htest, hrest⟩ := h.cons
    rw [List.any_cons, List.any_cons, Permission.namesOutside, Permission.namesOutside, hfield,
      htest.denies, hrest.denies p collection]

/-- Two filters pick the same documents, and are refused to the same callers. -/
structure Equivalent (f g : Filter) : Prop where
  holds : ∀ e, f.holds e = g.holds e
  denies : ∀ (p : Permission) (collection : String),
    f.any (p.namesOutside collection) = g.any (p.namesOutside collection)

theorem Alike.equivalent {f g : Filter} (h : f.Alike g) : f.Equivalent g :=
  ⟨fun e => h.holds e, fun p collection => h.denies p collection⟩

end Filter

namespace Scope

/-- What tells scopes apart. -/
def normal (s : Scope) : Scope := { s with filter := s.filter.normal }

theorem same_iff (a b : Scope) : a.same b = true ↔ a.normal = b.normal := by
  simp only [same, normal, Bool.and_eq_true, beq_iff_eq, Filter.same_iff, Scope.mk.injEq,
    and_assoc]

theorem same_symm {a b : Scope} (h : a.same b = true) : b.same a = true := by
  rw [same_iff] at h ⊢
  exact h.symm

theorem same_trans {a b c : Scope} (h : a.same b = true) (h' : b.same c = true) :
    a.same c = true := by
  rw [same_iff] at h h' ⊢
  exact h.trans h'

/-- Two scopes are the same, and their filters equivalent. -/
def Alike (a b : Scope) : Prop := a.same b = true ∧ a.filter.Equivalent b.filter

variable {a b : Scope}

theorem filter_alike (h : a.same b = true) (htexts : a.filter.texts = b.filter.texts) :
    a.filter.Alike b.filter := by
  refine ⟨?_, htexts⟩
  simp only [Scope.same, Bool.and_eq_true] at h
  exact h.1.1.1

theorem Alike.order (h : a.Alike b) : a.order = b.order := by
  have := h.1
  simp only [Scope.same, Bool.and_eq_true, beq_iff_eq] at this
  exact this.1.1.2

theorem Alike.window (h : a.Alike b) {α : Type} (items : List α) :
    a.window items = b.window items := by
  have := h.1
  simp only [Scope.same, Bool.and_eq_true, beq_iff_eq] at this
  unfold Scope.window
  rw [this.1.2, this.2]

theorem Alike.refl (a : Scope) : a.Alike a :=
  ⟨(same_iff a a).mpr rfl, fun _ => rfl, fun _ _ => rfl⟩

/-- Alike scopes let the same documents through, together with a link. -/
theorem Alike.holds (h : a.Alike b) (link : Filter) (e : Entity) :
    Filter.holds (link ++ a.filter) e = Filter.holds (link ++ b.filter) e := by
  rw [Filter.holds_append, Filter.holds_append, h.2.holds e]

/-- Alike scopes are refused alike. -/
theorem Alike.refuses (h : a.Alike b) (p : Permission) (collection : String) (link : Filter) :
    p.refuses collection (link ++ a.filter) = p.refuses collection (link ++ b.filter) := by
  rw [Permission.refuses, Permission.refuses, List.any_append, List.any_append,
    h.2.denies p collection]

end Scope

namespace Selector

mutual

/-- The many references in a selector, with their paths and scopes. -/
def scopes : Selector → List (List Edge × Scope)
  | .wildcard => []
  | .field _ => []
  | .list items => scopesOfItems items
  | .one target sub => (scopesOfSub sub).map fun (path, scope) => (.one target :: path, scope)
  | .many target sub scope =>
    ([.many target], scope) ::
      (scopesOfSub sub).map fun (path, scope) => (.many target :: path, scope)

/-- The many references in what stands below a reference. -/
def scopesOfSub : Option Selector → List (List Edge × Scope)
  | none => []
  | some selector => scopes selector

/-- The many references in several selectors. -/
def scopesOfItems : List Selector → List (List Edge × Scope)
  | [] => []
  | item :: items => scopes item ++ scopesOfItems items

end

/-- Many references on one path with the same scope have equivalent filters. -/
def ScopesAgree (scopes : List (List Edge × Scope)) : Prop :=
  ∀ path a b, (path, a) ∈ scopes → (path, b) ∈ scopes → a.same b = true →
    a.filter.Equivalent b.filter

/-- It is enough that the filters on one path have the same texts. -/
theorem scopesAgree_of_texts {scopes : List (List Edge × Scope)}
    (h : ∀ x ∈ scopes, ∀ y ∈ scopes, x.1 = y.1 → x.2.filter.texts = y.2.filter.texts) :
    ScopesAgree scopes := fun _ _ _ ha hb hsame =>
  (Scope.filter_alike hsame (h _ ha _ hb rfl)).equivalent

end Selector

namespace Plan

open Selector (scopes scopesOfSub scopesOfItems ScopesAgree)

/-- The many references fit the plan: where those on one path have the same scope, their filters are
equivalent, among each other and with what is there. -/
structure Fits (p : Plan) (scopes : List (List Edge × Scope)) : Prop where
  agree : ScopesAgree scopes
  plan : ∀ path node b, (path, b) ∈ scopes → p.node? path = some node →
    node.info.scope.same b = true → node.info.scope.filter.Equivalent b.filter

/-- The path leads along a many reference at last. -/
def EndsInMany (path : List Edge) : Prop := ∃ target, path.getLast? = some (.many target)

theorem EndsInMany.ne_nil {path : List Edge} (h : EndsInMany path) : path ≠ [] := by
  rintro rfl
  obtain ⟨_, h⟩ := h
  cases h

theorem endsInMany_cons {edge : Edge} {path : List Edge} (hne : path ≠ []) :
    EndsInMany (edge :: path) ↔ EndsInMany path := by
  cases path with
  | nil => exact absurd rfl hne
  | cons next rest => rw [EndsInMany, EndsInMany, List.getLast?_cons_cons]

mutual

theorem endsInMany_of_scopes : ∀ {selector : Selector} {path : List Edge} {scope : Scope},
    (path, scope) ∈ scopes selector → EndsInMany path
  | .wildcard, _, _, h => by simp [scopes] at h
  | .field _, _, _, h => by simp [scopes] at h
  | .list items, _, _, h => endsInMany_of_items h
  | .one target sub, path, scope, h => by
    simp only [scopes, List.mem_map] at h
    obtain ⟨⟨below, scope'⟩, hbelow, heq⟩ := h
    cases heq
    have hends := endsInMany_of_sub hbelow
    exact (endsInMany_cons hends.ne_nil).mpr hends
  | .many target sub _, path, scope, h => by
    simp only [scopes, List.mem_cons, List.mem_map] at h
    rcases h with heq | ⟨⟨below, scope'⟩, hbelow, heq⟩
    · cases heq
      exact ⟨target, rfl⟩
    · cases heq
      have hends := endsInMany_of_sub hbelow
      exact (endsInMany_cons hends.ne_nil).mpr hends

theorem endsInMany_of_sub : ∀ {sub : Option Selector} {path : List Edge} {scope : Scope},
    (path, scope) ∈ scopesOfSub sub → EndsInMany path
  | none, _, _, h => by simp [scopesOfSub] at h
  | some _, _, _, h => endsInMany_of_scopes h

theorem endsInMany_of_items : ∀ {items : List Selector} {path : List Edge} {scope : Scope},
    (path, scope) ∈ scopesOfItems items → EndsInMany path
  | [], _, _, h => by simp [scopesOfItems] at h
  | item :: items, _, _, h => by
    rw [scopesOfItems] at h
    rcases List.mem_append.mp h with h | h
    · exact endsInMany_of_scopes h
    · exact endsInMany_of_items h

end

/-! ## Where a path leads to -/

/-- Below the root the children decide. -/
theorem node?_congr {p p' : Plan} (h : ∀ edge, p'.child? edge = p.child? edge) {path : List Edge}
    (hne : path ≠ []) : p'.node? path = p.node? path := by
  cases path with
  | nil => exact absurd rfl hne
  | cons edge path => rw [node?_cons, node?_cons, h]

theorem node?_withChild {p child' node' : Plan} {edge other : Edge} {path : List Edge}
    (h : (p.withChild edge child').node? (other :: path) = some node') :
    (other = edge ∧ child'.node? path = some node') ∨ p.node? (other :: path) = some node' := by
  rw [node?_cons, child?_withChild] at h
  split at h
  · next heq => exact .inl ⟨heq, h⟩
  · exact .inr h

theorem node?_enter {p node : Plan} {edge : Edge} {scope : Scope} {n : Nat} {path : List Edge}
    (hne : path ≠ []) (h : (p.enter edge scope n).1.node? path = some node) :
    p.node? (edge :: path) = some node := by
  rw [node?_cons]
  cases hchild : p.child? edge with
  | some child =>
    rw [enter_of_some hchild] at h
    exact h
  | none =>
    rw [enter_of_none hchild] at h
    cases path with
    | nil => exact absurd rfl hne
    | cons next rest => simp [node?_cons] at h

/-! ## What fits further down and further on -/

theorem Fits.mono {p : Plan} {all part : List (List Edge × Scope)} (h : Fits p all)
    (hpart : ∀ pair ∈ part, pair ∈ all) : Fits p part :=
  ⟨fun path a b ha hb => h.agree path a b (hpart _ ha) (hpart _ hb),
    fun path node b hb => h.plan path node b (hpart _ hb)⟩

/-- What fits below an edge fits the child that is loaded into. -/
theorem Fits.enter {p : Plan} {edge : Edge} {scope : Scope} {n : Nat} {sub : Option Selector}
    (h : Fits p ((scopesOfSub sub).map fun (path, scope) => (edge :: path, scope))) :
    Fits (p.enter edge scope n).1 (scopesOfSub sub) := by
  have hmem : ∀ {path b}, (path, b) ∈ scopesOfSub sub →
      (edge :: path, b) ∈ (scopesOfSub sub).map fun (path, scope) => (edge :: path, scope) :=
    fun hb => List.mem_map.mpr ⟨_, hb, rfl⟩
  refine ⟨fun path a b ha hb => h.agree _ a b (hmem ha) (hmem hb), ?_⟩
  intro path node b hb hnode
  exact h.plan _ node b (hmem hb) (node?_enter (endsInMany_of_sub hb).ne_nil hnode)

theorem Fits.sub_one {p : Plan} {target : String} {sub : Option Selector} {n : Nat}
    (h : Fits p (scopes (.one target sub))) :
    Fits (p.enter (.one target) .unrestricted n).1 (scopesOfSub sub) := by
  rw [scopes] at h
  exact h.enter

theorem Fits.sub_many {p : Plan} {target : String} {sub : Option Selector} {scope : Scope} {n : Nat}
    (h : Fits p (scopes (.many target sub scope))) :
    Fits (p.enter (.many target) scope n).1 (scopesOfSub sub) := by
  rw [scopes] at h
  exact (h.mono fun _ hpair => List.mem_cons_of_mem _ hpair).enter

/-- Where a many reference can be loaded, the child that is loaded into has an alike scope. -/
theorem Fits.alike {p : Plan} {target : String} {sub : Option Selector} {scope : Scope} {n : Nat}
    (h : Fits p (scopes (.many target sub scope)))
    (hsame : ∀ child, p.child? (.many target) = some child → child.info.scope.same scope = true) :
    (p.enter (.many target) scope n).1.info.scope.Alike scope := by
  cases hchild : p.child? (.many target) with
  | some child =>
    rw [enter_of_some hchild]
    refine ⟨hsame child hchild, h.plan [.many target] child scope ?_ ?_ (hsame child hchild)⟩
    · rw [scopes]
      exact List.mem_cons_self ..
    · rw [node?_cons, hchild]
      rfl
  | none =>
    rw [enter_of_none hchild]
    exact Scope.Alike.refl scope

/-- The scope at the end of a path in the second plan was there in the first one, or is among those
that have been loaded. -/
def ScopesFrom (p p' : Plan) (loaded : List (List Edge × Scope)) : Prop :=
  ∀ path node', EndsInMany path → p'.node? path = some node' →
    (∃ node, p.node? path = some node ∧ node.info.scope = node'.info.scope) ∨
      (path, node'.info.scope) ∈ loaded

theorem scopesFrom_of_child? {p p' : Plan} (h : ∀ edge, p'.child? edge = p.child? edge)
    (loaded : List (List Edge × Scope)) : ScopesFrom p p' loaded := fun _ node' hends hnode =>
  .inl ⟨node', (node?_congr h hends.ne_nil) ▸ hnode, rfl⟩

/-- Scopes further down than the child that has been loaded into. -/
theorem ScopesFrom.below {p child' : Plan} {edge : Edge} {scope : Scope} {n : Nat}
    {below : List (List Edge × Scope)} (h : ScopesFrom (p.enter edge scope n).1 child' below)
    {path : List Edge} {node' : Plan} (hends : EndsInMany path)
    (hnode : child'.node? path = some node') :
    (∃ node, p.node? (edge :: path) = some node ∧ node.info.scope = node'.info.scope) ∨
      (edge :: path, node'.info.scope)
        ∈ below.map fun (path, scope) => (edge :: path, scope) := by
  rcases h path node' hends hnode with ⟨node, hthere, hscope⟩ | hloaded
  · exact .inl ⟨node, node?_enter hends.ne_nil hthere, hscope⟩
  · exact .inr (List.mem_map.mpr ⟨_, hloaded, rfl⟩)

mutual

theorem scopesFrom_load : ∀ (selector : Selector) {p p' : Plan} {n n' : Nat},
    load selector p n = .ok (p', n') → ScopesFrom p p' (scopes selector)
  | .wildcard, p, p', n, n', h => by
    cases h
    exact scopesFrom_of_child? (child?_readAll p) _
  | .field name, p, p', n, n', h => by
    cases h
    exact scopesFrom_of_child? (child?_readField p name) _
  | .list items, p, p', n, n', h => scopesFrom_loadItems items h
  | .one target sub, p, p', n, n', h => by
    obtain ⟨child', hsub, rfl⟩ := of_load_one h
    intro path node' hends hnode
    cases path with
    | nil => exact absurd rfl hends.ne_nil
    | cons edge path =>
      rcases node?_withChild hnode with ⟨rfl, hchild⟩ | hthere
      · -- a path that ends in a many reference does not end here
        have hne : path ≠ [] := by
          rintro rfl
          obtain ⟨_, hlast⟩ := hends
          cases hlast
        rw [scopes]
        exact (scopesFrom_loadSub sub hsub).below ((endsInMany_cons hne).mp hends) hchild
      · exact .inl ⟨node', hthere, rfl⟩
  | .many target sub scope, p, p', n, n', h => by
    obtain ⟨-, child', hsub, rfl⟩ := of_load_many h
    intro path node' hends hnode
    rw [scopes]
    cases path with
    | nil => exact absurd rfl hends.ne_nil
    | cons edge path =>
      rcases node?_withChild hnode with ⟨rfl, hchild⟩ | hthere
      · cases path with
        | nil =>
          -- the node that is loaded into: its scope was there before, or is that of the reference
          cases hchild
          have hscope := (loadSub_extends hsub).root.scope
          cases hold : p.child? (.many target) with
          | some child =>
            rw [enter_of_some hold] at hscope
            exact .inl ⟨child, by rw [node?_cons, hold]; rfl, hscope.symm⟩
          | none =>
            rw [enter_of_none hold] at hscope
            rw [hscope]
            exact .inr (List.mem_cons_self ..)
        | cons next rest =>
          have hends' : EndsInMany (next :: rest) := (endsInMany_cons (by simp)).mp hends
          exact ((scopesFrom_loadSub sub hsub).below hends' hchild).imp_right
            (List.mem_cons_of_mem _)
      · exact .inl ⟨node', hthere, rfl⟩

theorem scopesFrom_loadSub : ∀ (sub : Option Selector) {p p' : Plan} {n n' : Nat},
    loadSub sub p n = .ok (p', n') → ScopesFrom p p' (scopesOfSub sub)
  | none, p, p', n, n', h => by
    cases h
    exact scopesFrom_of_child? (child?_readAll p) _
  | some selector, p, p', n, n', h => scopesFrom_load selector h

theorem scopesFrom_loadItems : ∀ (items : List Selector) {p p' : Plan} {n n' : Nat},
    loadItems items p n = .ok (p', n') → ScopesFrom p p' (scopesOfItems items)
  | [], p, p', n, n', h => by
    cases h
    exact scopesFrom_of_child? (fun _ => rfl) _
  | item :: items, p, p', n, n', h => by
    obtain ⟨q, k, hitem, hitems⟩ := of_loadItems_cons h
    intro path node' hends hnode
    rw [scopesOfItems]
    rcases scopesFrom_loadItems items hitems path node' hends hnode with
      ⟨node, hthere, hscope⟩ | hloaded
    · rcases scopesFrom_load item hitem path node hends hthere with
        ⟨first, hfirst, hscope'⟩ | hloaded
      · exact .inl ⟨first, hfirst, hscope'.trans hscope⟩
      · rw [hscope] at hloaded
        exact .inr (List.mem_append_left _ hloaded)
    · exact .inr (List.mem_append_right _ hloaded)

end

/-- What fits with several items still fits when the first one has been loaded. -/
theorem Fits.rest {p q : Plan} {item : Selector} {items : List Selector} {n k : Nat}
    (h : Fits p (scopesOfItems (item :: items))) (hitem : load item p n = .ok (q, k)) :
    Fits q (scopesOfItems items) := by
  rw [scopesOfItems] at h
  refine ⟨(h.mono fun _ hpair => List.mem_append_right _ hpair).agree, ?_⟩
  intro path node b hb hnode
  rcases scopesFrom_load item hitem path node (endsInMany_of_items hb) hnode with
    ⟨first, hfirst, hscope⟩ | hloaded
  · rw [← hscope]
    exact h.plan path first b (List.mem_append_right _ hb) hfirst
  · exact h.agree path _ b (List.mem_append_left _ hloaded) (List.mem_append_right _ hb)

theorem Fits.first {p : Plan} {item : Selector} {items : List Selector}
    (h : Fits p (scopesOfItems (item :: items))) : Fits p (scopes item) := by
  rw [scopesOfItems] at h
  exact h.mono fun _ hpair => List.mem_append_left _ hpair

/-- A new plan has nothing that could fail to fit. -/
theorem fits_leaf {sub : Option Selector} (h : ScopesAgree (scopesOfSub sub)) (id : Nat)
    (collection : String) (scope : Scope) : Fits (leaf id collection scope) (scopesOfSub sub) := by
  refine ⟨h, fun path node b hb hnode => ?_⟩
  cases path with
  | nil => exact absurd rfl (endsInMany_of_sub hb).ne_nil
  | cons edge path => simp [node?_cons] at hnode

end Plan

end LinkedDocs
