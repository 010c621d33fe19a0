import LinkedDocs.Proofs.Pass.Outcome
import LinkedDocs.Proofs.Plan.Rescoping
import LinkedDocs.Proofs.Reading.Equivalence
import LinkedDocs.Proofs.Reading.Flattening

/-!
# References are queries

A reference in a selector saves a client a query of its own. What the client gets there is what the
query would give, and where the query is refused so is the reference:

> `reference_eq_query`: reading a document with a single reference is reading the document that it
> leads to, and reading it with a many reference is reading a page, with the link as one more
> condition.

The reference is resolved at a node that has another number than the root of the query, in a memo
that already holds the document. So the two passes are laid side by side (`simulates_expand`), and
the answers are written side by side from what they leave (`Answer.ofEntity_alike`).
-/

namespace LinkedDocs

/-! ## The plan for a reference -/

namespace Plan

/-- A root that reads nothing but what stands below one reference. -/
def referring (collection : String) (edge : Edge) (below : Plan) : Plan :=
  (leaf 0 collection .unrestricted).withChild edge (below.renumber (· + 1))

/-- What stands below a reference is loaded like a plan of its own, under the next numbers. -/
theorem map_loadSub_leaf (sub : Option Selector) (target : String) (scope : Scope)
    (put : Plan → Plan) :
    ((loadSub sub (leaf 1 target scope) 2).map fun (child, next) => (put child, next)).map Prod.fst
      = (build target sub scope).map fun below => put (below.renumber (· + 1)) := by
  have hload : loadSub sub ((leaf 0 target scope).renumber (· + 1)) 2
      = (loadSub sub (leaf 0 target scope) 1).map (Loaded (· + 1)) :=
    loadSub_renumber (fun _ => rfl) sub (leaf 0 target scope) 1
  change ((loadSub sub ((leaf 0 target scope).renumber (· + 1)) 2).map _).map Prod.fst = _
  rw [hload, build]
  cases loadSub sub (leaf 0 target scope) 1 <;> rfl

theorem build_one (collection target : String) (sub : Option Selector) :
    build collection (some (.one target sub)) .unrestricted
      = (build target sub .unrestricted).map (referring collection (.one target)) :=
  map_loadSub_leaf sub target .unrestricted (withOne (leaf 0 collection .unrestricted) target)

theorem build_many (collection target : String) (sub : Option Selector) (scope : Scope) :
    build collection (some (.many target sub scope)) .unrestricted
      = (build target sub scope).map (referring collection (.many target)) :=
  map_loadSub_leaf sub target scope (withMany (leaf 0 collection .unrestricted) target)

theorem child?_referring (collection : String) (edge : Edge) (below : Plan) :
    (referring collection edge below).child? edge = some (below.renumber (· + 1)) :=
  child?_withChild_self _ _ edge

theorem projection_referring (collection : String) (edge : Edge) (below : Plan) :
    (referring collection edge below).projection.includes edge.target = true :=
  projection_includes_target (child?_referring collection edge below)

end Plan

open Plan (referring)

variable {m : Memory} {p : Permission} {collection id target : String} {a : Entity}

/-! ## The pass for a reference -/

namespace Pass

/-- The memo after the look-up of a document, the first thing that is done. -/
def lookedUp (plan : Plan) (id : String) (e : Entity) : Memo :=
  Memo.addEntity { Memo.empty with gets := 1 } plan.info.id id (some e)

/-- Reading a document that is there comes down to following its references. -/
theorem eval_one_found (hm : m.Identified) (on : m.offline = false) (plan : Plan)
    (hcheck : p.check plan.info.collection id = true)
    (ha : m.entity? plan.info.collection id = some a) :
    let e := a.restrict plan.projection
    eval m.reply (Pass.one p plan id) .empty
      = eval m.reply (expand p plan e >>= fun _ => pure (some e)) (lookedUp plan id e) := by
  intro e
  rw [Pass.one, resolveOne_eq, if_pos hcheck, eval_bind, eval_fetchOne,
    show Memo.empty.entity? plan.info.id id = none from rfl]
  dsimp only
  rw [Memory.reply_get_entity hm on, ha]
  rfl

variable {reply : (call : Call) → call.Answer} {memo : Memo} {below : Plan} {e : Entity}

/-- The references of a document are followed if that has not been done. -/
theorem eval_expand_of_new {plan : Plan} (hchildren : plan.hasChildren = true)
    (hnew : memo.isExpanded plan.info.id e.id = false) :
    eval reply (expand p plan e) memo = eval reply (do
      followOnes p plan.ones e
      followManys p plan.info.collection plan.manys e
      modify (·.addExpanded plan.info.id e.id)) memo := by
  obtain ⟨info, ones, manys⟩ := plan
  have hsome : ¬ (ones.isEmpty && manys.isEmpty) = true := by
    rw [Bool.not_eq_true, ← Bool.not_eq_true']
    exact hchildren
  have hfirst : ¬ memo.isExpanded info.id e.id = true := by
    rw [show memo.isExpanded info.id e.id = false from hnew]
    exact Bool.false_ne_true
  rw [expand, if_neg hsome, eval_bind, eval_get]
  dsimp only
  rw [if_neg hfirst]
  rfl

/-- Following a single reference. -/
theorem eval_expand_one (hnew : memo.isExpanded 0 e.id = false) {x : String}
    (hlink : e.link target = .single x) :
    eval reply (expand p (referring collection (.one target) below) e) memo
      = eval reply (Pass.one p (below.renumber (· + 1)) x
          >>= fun _ => modify (·.addExpanded 0 e.id)) memo := by
  have hones : followOnes p [(target, below.renumber (· + 1))] e
      = Pass.one p (below.renumber (· + 1)) x >>= fun _ => pure () := by
    rw [followOnes, hlink, ← discard_eq, ← bind_pure (discard _)]
    rfl
  have hmanys : followManys p collection [] e = pure () := rfl
  rw [eval_expand_of_new rfl hnew]
  change eval reply (followOnes p [(target, below.renumber (· + 1))] e
    >>= fun _ => followManys p collection [] e
    >>= fun _ => modify (·.addExpanded 0 e.id)) memo = _
  rw [hones, hmanys]
  simp only [bind_assoc, pure_bind]

/-- Following a many reference. -/
theorem eval_expand_many (hnew : memo.isExpanded 0 e.id = false) {link : Filter}
    (hlink : linkFilter? collection e target = some link) :
    eval reply (expand p (referring collection (.many target) below) e) memo
      = eval reply (Pass.many p (below.renumber (· + 1)) (some e.id) link
          >>= fun _ => modify (·.addExpanded 0 e.id)) memo := by
  have hones : followOnes p [] e = pure () := rfl
  have hmanys : followManys p collection [(target, below.renumber (· + 1))] e
      = Pass.many p (below.renumber (· + 1)) (some e.id) link >>= fun _ => pure () := by
    rw [followManys, hlink, ← discard_eq, ← bind_pure (discard _)]
    rfl
  rw [eval_expand_of_new rfl hnew]
  change eval reply (followOnes p [] e
    >>= fun _ => followManys p collection [(target, below.renumber (· + 1))] e
    >>= fun _ => modify (·.addExpanded 0 e.id)) memo = _
  rw [hones, hmanys]
  simp only [bind_assoc, pure_bind]

/-- A page that is not filed is searched for. -/
theorem eval_many_of_new {plan : Plan} {parent : Option String} {link : Filter}
    (hnew : memo.page? plan.info.id parent = none) :
    eval reply (Pass.many p plan parent link) memo = eval reply (do
      let page ← fetchPage p plan (expand p plan) link
      modify (·.addPage plan.info.id parent page)
      return page) memo := by
  rw [Pass.many, resolveMany_eq, eval_bind, eval_get]
  dsimp only
  rw [hnew]
  rfl

/-- The scope of the root has no say in what a document refers to. -/
theorem expand_withScope (p : Permission) (plan : Plan) (scope : Scope) :
    expand p (plan.withScope scope) = expand p plan := by
  funext e
  cases plan
  rw [Plan.withScope, expand, expand]

/-- The second memo holds one document more than the first one, at a node that does not matter. -/
theorem tracks_lookedUp {plan : Plan} (hroot : plan.info.id = 0) (id : String) (e : Entity) :
    Memo.Tracks (· + 1) Eq .empty (lookedUp plan id e) := by
  refine ⟨fun node other => ?_, fun _ _ => .none, fun _ _ => rfl⟩
  rw [lookedUp, Memo.entity?_addEntity, hroot, if_neg fun h => Nat.succ_ne_zero node h.1]
  exact .none

end Pass

/-! ## The answer for a reference -/

namespace Answer

mutual

/-- Writing takes no notice of the scope of the root. -/
theorem write_withScope (memo : Memo) (plan : Plan) (scope : Scope) (e : Entity) (start : String) :
    ∀ (selector : Selector) (out : Fields),
      write memo selector (plan.withScope scope) e start out = write memo selector plan e start out
  | .wildcard, _ | .field _, _ => rfl
  | .list items, out => by
    rw [write, write]
    exact writeItems_withScope memo plan scope e start items out
  | .one target sub, out => by rw [write, write, Plan.ones_withScope]
  | .many target sub own, out => by rw [write, write, Plan.manys_withScope]

theorem writeItems_withScope (memo : Memo) (plan : Plan) (scope : Scope) (e : Entity)
    (start : String) : ∀ (items : List Selector) (out : Fields),
      writeItems memo items (plan.withScope scope) e start out
        = writeItems memo items plan e start out
  | [], _ => rfl
  | item :: items, out => by
    rw [writeItems, writeItems, write_withScope memo plan scope e start item out]
    exact writeItems_withScope memo plan scope e start items _

end

theorem ofEntity_withScope (memo : Memo) (plan : Plan) (scope : Scope)
    (select : Option Selector) :
    ofEntity memo (plan.withScope scope) select = ofEntity memo plan select := by
  funext e
  cases select with
  | none => rfl
  | some selector => exact congrArg Value.ofFields (write_withScope memo plan scope e "" selector _)

variable {memo : Memo} {below : Plan} {e : Entity} {sub : Option Selector}

/-- The answer for a document with a single reference. -/
theorem ofEntity_one {x : String} {found : Option Entity} (hlink : e.link target = .single x)
    (hfiled : memo.entity? (below.renumber (· + 1)).info.id x = some found) :
    ofEntity memo (referring collection (.one target) below) (some (.one target sub)) e
      = embedded target sub
          (found.map (ofEntity memo (below.renumber (· + 1)) sub)) := by
  have hfound : referenced? memo (below.renumber (· + 1)) e target = found := by
    rw [referenced?, hlink]
    dsimp only
    rw [hfiled]
    rfl
  have hchild : List.lookup target (referring collection (.one target) below).ones
      = some (below.renumber (· + 1)) := Plan.child?_referring collection (.one target) below
  rw [ofEntity, write, hchild]
  dsimp only
  rw [hfound]
  cases found with
  | none => rfl
  | some found => exact ofFields_writeOne memo sub _ found target

/-- The answer for a document with a many reference. -/
theorem ofEntity_many {own : Scope} {page : List Entity} (hsub : sub.any isChain = false)
    (hfiled : memo.page? (below.renumber (· + 1)).info.id (some e.id) = some page) :
    ofEntity memo (referring collection (.many target) below) (some (.many target sub own)) e
      = .object [("@[" ++ target ++ "]",
          .array (page.map (ofEntity memo (below.renumber (· + 1)) sub)))] := by
  have hchild : List.lookup target (referring collection (.many target) below).manys
      = some (below.renumber (· + 1)) := Plan.child?_referring collection (.many target) below
  rw [ofEntity, write, hchild]
  dsimp only
  rw [members?, hfiled]
  exact ofFields_writeMany memo hsub _ page target

end Answer

namespace Query

open Pass (lookedUp eval_one_found eval_expand_one eval_expand_many tracks_lookedUp filed_of_one
  eval_bind simulates_resolveOne simulates_expand)

theorem injective_next : Function.Injective fun n : Nat => n + 1 := fun _ _ => Nat.succ.inj

section Online

variable (hm : m.Identified) (on : m.offline = false)
include hm on

/-- The pass for a document with a single reference goes like the one for what the reference leads
to. -/
theorem eval_one_referring (ha : m.entity? collection id = some a)
    (hcheck : p.check collection id = true) {x : String} (hlink : a.link target = .single x)
    (below : Plan) (sub : Option Selector) :
    let root := referring collection (.one target) below
    (Pass.eval m.reply (Pass.one p root id) .empty).1.map
        (Option.map (Answer.ofEntity (Pass.eval m.reply (Pass.one p root id) .empty).2 root
          (some (.one target sub))))
      = (Pass.eval m.reply (Pass.one p below x) .empty).1.map fun found =>
          some (Answer.embedded target sub (found.map (Answer.ofEntity
            (Pass.eval m.reply (Pass.one p below x) .empty).2 below sub))) := by
  intro root
  let e := a.restrict root.projection
  have hlink' : e.link target = .single x :=
    (Entity.link_restrict_of_includes (Plan.projection_referring ..) a).trans hlink
  obtain ⟨hends, htracks, -⟩ := simulates_resolveOne injective_next (.refl m.reply) p below
    (simulates_expand injective_next .of_eq (.refl m.reply) p below) x .empty
    (lookedUp root id e) (tracks_lookedUp rfl id e)
  change EndsAlike _ (Pass.eval m.reply (Pass.one p below x) .empty).1
    (Pass.eval m.reply (Pass.one p (below.renumber (· + 1)) x) (lookedUp root id e)).1 at hends
  change Memo.Tracks _ _ (Pass.eval m.reply (Pass.one p below x) .empty).2
    (Pass.eval m.reply (Pass.one p (below.renumber (· + 1)) x) (lookedUp root id e)).2 at htracks
  rw [eval_one_found hm on root hcheck ha, eval_bind, eval_expand_one rfl hlink',
    eval_bind]
  cases hdirect : Pass.eval m.reply (Pass.one p below x) .empty with
  | mk result left =>
    cases hnested : Pass.eval m.reply (Pass.one p (below.renumber (· + 1)) x)
        (lookedUp root id e) with
    | mk result' left' =>
      rw [hdirect, hnested] at hends htracks
      cases hends with
      | error error => rfl
      | @ok found found' hfound =>
        have hfiled : left'.entity? (below.renumber (· + 1)).info.id x = some found' :=
          filed_of_one hnested
        -- noting the document as followed leaves what is filed
        let after := left'.addExpanded 0 e.id
        have hshows : Memo.Shows (· + 1) (fun _ => True) Eq left after :=
          ⟨fun node _ => htracks.entity node, fun node _ parent => htracks.page node (some parent)⟩
        have hone : Answer.ofEntity after root (some (.one target sub)) e
            = Answer.embedded target sub
                (found'.map (Answer.ofEntity after (below.renumber (· + 1)) sub)) :=
          Answer.ofEntity_one hlink' hfiled
        show Except.ok (some (Answer.ofEntity after root (some (.one target sub)) e))
          = .ok (some _)
        rw [hone]
        cases hfound with
        | none => rfl
        | @some document _ hsame =>
          cases hsame
          have hnodes : ∀ n ∈ below.idsBelow, (fun _ => True) n := fun _ _ => trivial
          have hanswer := Answer.ofEntity_alike Answer.renders_eq hshows hnodes sub
            (rfl : document = document)
          rw [Option.map_some, Option.map_some, hanswer]

end Online

/-- The search that a link makes goes like the search with the link as a condition. -/
theorem simulates_link (reply : (call : Call) → call.Answer) (p : Permission) (below : Plan)
    (condition : Condition) :
    let scope := below.info.scope
    let page := below.withScope { scope with filter := condition :: scope.filter }
    Pass.Simulates (· + 1) Eq reply reply (List.Forall₂ Eq)
      (Pass.fetchPage p page (Pass.expand p page) [])
      (Pass.fetchPage p (below.renumber (· + 1)) (Pass.expand p (below.renumber (· + 1)))
        [condition]) := by
  intro scope page
  refine Pass.simulates_fetchPage .of_eq (.refl reply) p ?_ ?_ ?_ ?_ ?_
  · rw [Plan.info_renumber, Plan.info_withScope]
  · rw [Plan.info_renumber, Plan.info_withScope]
    rfl
  · rw [Plan.projection_renumber]
    exact (Plan.projection_withScope below
      { scope with filter := condition :: scope.filter } rfl).symm
  · intro found
    rw [Plan.info_renumber, Plan.info_withScope]
    rfl
  · intro a b hab
    rw [Pass.expand_withScope]
    exact simulates_expand injective_next .of_eq (.refl reply) p below a b hab

/-- Two pages are filed, each at the root of its plan, where no document below refers to. -/
theorem shows_of_pages {left left' : Memo} (h : Memo.Tracks (· + 1) Eq left left') {root next : Nat}
    (hnext : next = root + 1) (parent : String) (page : List Entity) :
    Memo.Shows (· + 1) (· ≠ root) Eq (left.addPage root none page)
      (left'.addPage next (some parent) page) := by
  refine ⟨fun node _ => h.entity node, fun node hne other => ?_⟩
  rw [Memo.page?_addPage, Memo.page?_addPage, if_neg fun hat => Option.some_ne_none other hat.2,
    if_neg fun hat => hne (Nat.succ.inj (hat.1.trans hnext))]
  exact h.page node (some other)

section Online

variable (hm : m.Identified) (on : m.offline = false)
include hm on

/-- The pass for a document with a many reference goes like the one for a page that the link is a
condition of. -/
theorem eval_many_referring (ha : m.entity? collection id = some a)
    (hcheck : p.check collection id = true) {condition : Condition}
    (hlink : Pass.linkFilter? collection a target = some [condition]) {below : Plan}
    (hdistinct : below.ids.Nodup) {sub : Option Selector} (hsub : sub.any Answer.isChain = false)
    (own : Scope) :
    let root := referring collection (.many target) below
    let scope := below.info.scope
    let page := below.withScope { scope with filter := condition :: scope.filter }
    (Pass.eval m.reply (Pass.one p root id) .empty).1.map
        (Option.map (Answer.ofEntity (Pass.eval m.reply (Pass.one p root id) .empty).2 root
          (some (.many target sub own))))
      = (Pass.eval m.reply (Pass.many p page none []) .empty).1.map fun found =>
          some (.object [("@[" ++ target ++ "]", .array (found.map (Answer.ofEntity
            (Pass.eval m.reply (Pass.many p page none []) .empty).2 page sub)))]) := by
  intro root scope page
  let e := a.restrict root.projection
  let child := below.renumber (· + 1)
  have hlink' : Pass.linkFilter? collection e target = some [condition] :=
    (Pass.linkFilter?_restrict (Plan.projection_referring ..) collection a).trans hlink
  have hchild : child.info.id = page.info.id + 1 := by
    rw [Plan.info_renumber, Plan.info_withScope]
  have hnodes : ∀ n ∈ below.idsBelow, n ≠ page.info.id := by
    rw [Plan.ids_eq, List.nodup_cons] at hdistinct
    rw [Plan.info_withScope]
    exact fun n hn hsame => hdistinct.1 (hsame ▸ hn)
  obtain ⟨hends, htracks, -⟩ := simulates_link m.reply p below condition .empty
    (lookedUp root id e) (tracks_lookedUp rfl id e)
  rw [eval_one_found hm on root hcheck ha, eval_bind, eval_expand_many rfl hlink', eval_bind,
    Pass.eval_many_of_new rfl, Pass.eval_many_of_new rfl, eval_bind, eval_bind]
  cases hdirect : Pass.eval m.reply (Pass.fetchPage p page (Pass.expand p page) []) .empty with
  | mk result left =>
    cases hnested : Pass.eval m.reply (Pass.fetchPage p child (Pass.expand p child) [condition])
        (lookedUp root id e) with
    | mk result' left' =>
      rw [hdirect, hnested] at hends htracks
      cases hends with
      | error error => rfl
      | @ok found found' hfound =>
        rw [List.forall₂_eq_eq_eq] at hfound
        cases hfound
        let before := left.addPage page.info.id none found
        let filed := left'.addPage child.info.id (some e.id) found
        have hshows := shows_of_pages htracks hchild e.id found
        -- noting the document as followed leaves what is filed
        let after := filed.addExpanded 0 e.id
        have hafter : Memo.Shows (· + 1) (· ≠ page.info.id) Eq before after :=
          ⟨hshows.entity, hshows.page⟩
        have hmany : Answer.ofEntity after root (some (.many target sub own)) e
            = .object [("@[" ++ target ++ "]",
                .array (found.map (Answer.ofEntity after child sub)))] :=
          Answer.ofEntity_many hsub ((Memo.page?_addPage ..).trans (if_pos ⟨rfl, rfl⟩))
        have hmembers : found.map (Answer.ofEntity after child sub)
            = found.map (Answer.ofEntity before page sub) := by
          rw [Answer.ofEntity_withScope]
          exact List.map_congr_left fun member _ =>
            (Answer.ofEntity_alike Answer.renders_eq hafter hnodes sub rfl).symm
        show Except.ok (some (Answer.ofEntity after root (some (.many target sub own)) e))
          = .ok (some _)
        rw [hmany, hmembers]
        rfl

end Online

/-- A single reference is read as the document that it leads to. -/
theorem eval_one_reference (hm : m.Identified) (on : m.offline = false)
    (ha : m.entity? collection id = some a) (hcheck : p.check collection id = true) {x : String}
    (hlink : a.link target = .single x) (sub : Option Selector) (scope scope' : Scope) :
    (one p collection id ⟨some (.one target sub), scope⟩).eval m.reply
      = ((one p target x ⟨sub, scope'⟩).eval m.reply).map fun found =>
          some (Answer.embedded target sub found) := by
  let nested : Request := ⟨some (.one target sub), scope⟩
  let direct : Request := ⟨sub, scope'⟩
  have hbuild := Plan.build_one collection target sub
  cases hplan : Plan.build target sub .unrestricted with
  | error error =>
    rw [hplan] at hbuild
    rw [one, one, hbuild, hplan]
    rfl
  | ok below =>
    rw [hplan] at hbuild
    have hnested : Plan.build collection nested.select .unrestricted
        = .ok (referring collection (.one target) below) := hbuild
    have hdirect : Plan.build target direct.select .unrestricted = .ok below := hplan
    change (one p collection id nested).eval m.reply = ((one p target x direct).eval m.reply).map _
    rw [eval_one hnested, eval_one hdirect, eval_one_referring hm on ha hcheck hlink below sub]
    cases (Pass.eval m.reply (Pass.one p below x) .empty).1 <;> rfl

/-- The condition by which a link picks documents of the collection that it leads to: by their ids
or, where the document has no such field, by the field that leads back to it. -/
def linkCondition (collection : String) (a : Entity) (target : String) : Condition :=
  match a.link target with
  | .many ids => ⟨idField, .isIn (ids.map .string)⟩
  | .single id => ⟨idField, .isIn [.string id]⟩
  | .absent | .invalid => ⟨collection, .equals (.string a.id)⟩

theorem linkFilter?_eq (hlink : a.link target ≠ .invalid) :
    Pass.linkFilter? collection a target = some [linkCondition collection a target] := by
  unfold Pass.linkFilter? linkCondition
  cases h : a.link target with
  | absent | single | many => rfl
  | invalid => exact absurd h hlink

/-- A many reference is read as the page of the documents that the link picks. -/
theorem eval_many_reference (hm : m.Identified) (on : m.offline = false)
    (ha : m.entity? collection id = some a) (hcheck : p.check collection id = true)
    (hlink : a.link target ≠ .invalid) {sub : Option Selector}
    (hsub : sub.any Answer.isChain = false) (own scope : Scope) :
    let linked : Scope := { own with filter := linkCondition collection a target :: own.filter }
    (one p collection id ⟨some (.many target sub own), scope⟩).eval m.reply
      = ((many p target ⟨sub, linked⟩).eval m.reply).map fun list =>
          some (.object [("@[" ++ target ++ "]", .array list)]) := by
  intro linked
  let nested : Request := ⟨some (.many target sub own), scope⟩
  let direct : Request := ⟨sub, linked⟩
  have hbuild := Plan.build_many collection target sub own
  have hdirect : Plan.build target direct.select direct.scope
      = (Plan.build target sub own).map (·.withScope linked) :=
    Plan.build_eq_withScope linked target sub own
  cases hplan : Plan.build target sub own with
  | error error =>
    rw [hplan] at hbuild hdirect
    change (one p collection id nested).eval m.reply = ((many p target direct).eval m.reply).map _
    rw [one, many, hdirect, show Plan.build collection nested.select .unrestricted = _ from hbuild]
    rfl
  | ok below =>
    rw [hplan] at hbuild hdirect
    have hnested : Plan.build collection nested.select .unrestricted
        = .ok (referring collection (.many target) below) := hbuild
    obtain ⟨next, hload⟩ := Plan.of_build hplan
    have hown : below.info.scope = own := (Plan.loadSub_extends hload).root.scope
    have hpass := eval_many_referring hm on ha hcheck (linkFilter?_eq hlink)
      (Plan.nodup_of_build hplan) hsub own
    rw [hown] at hpass
    change (one p collection id nested).eval m.reply = ((many p target direct).eval m.reply).map _
    rw [eval_one hnested, eval_many hdirect, hpass]
    cases (Pass.eval m.reply (Pass.many p (below.withScope linked) none []) .empty).1 <;> rfl

/-! ## Without a store -/

theorem eval_one_of_offline (off : m.offline = true) (collection id : String) (request : Request) :
    ∃ error, (one p collection id request).eval m.reply = .error error := by
  cases hplan : Plan.build collection request.select .unrestricted with
  | error error => exact ⟨error, by rw [one, hplan]; rfl⟩
  | ok plan =>
    obtain ⟨error, hfails⟩ := resolveOne_of_offline (p := p) off (Pass.expand p plan) id
    change (Pass.eval m.reply (Pass.one p plan id) .empty).1 = _ at hfails
    exact ⟨error, by rw [eval_one hplan, hfails]; rfl⟩

theorem eval_many_of_offline (off : m.offline = true) (collection : String) (request : Request) :
    ∃ error, (many p collection request).eval m.reply = .error error := by
  cases hplan : Plan.build collection request.select request.scope with
  | error error => exact ⟨error, by rw [many, hplan]; rfl⟩
  | ok plan =>
    obtain ⟨error, hfails⟩ := resolveMany_of_offline (p := p) off (Pass.expand p plan) []
    change (Pass.eval m.reply (Pass.many p plan none []) .empty).1 = _ at hfails
    exact ⟨error, by rw [eval_many hplan, hfails]; rfl⟩

/-- Where equal ends are known for a store that is online, and both fail otherwise, the two succeed
together with the same result, and fail with the same error on a store that is online. -/
theorem ends_of_online {α β : Type} {x : Except QueryError α} {y : Except QueryError β} {f : β → α}
    (hon : m.offline = false → x = y.map f)
    (hoff : m.offline = true → (∃ error, x = .error error) ∧ ∃ error, y = .error error) :
    x.toOption = y.toOption.map f ∧ (m.offline = false → x = y.map f) := by
  refine ⟨?_, hon⟩
  cases off : m.offline with
  | false =>
    rw [hon off]
    cases y <;> rfl
  | true =>
    obtain ⟨⟨_, rfl⟩, _, rfl⟩ := hoff off
    rfl

/-- **A reference is a query.** Take any store whose documents have ids, and a document that the
caller may read.

If its field for a collection leads to one document, reading the document with a single reference
fails exactly if the query for what the reference leads to fails, with the same error as long as the
store is online. Otherwise it gives what the query gives: no key if there is no such document, one
key with the answer if the whole document or a list is selected, and below a longer chain the keys
of the answer with the reference in front.

Whatever its link to a collection, unless it is invalid, reading the document with a many reference
to whole documents or lists fails exactly if the query for a page fails that has the link as one
more condition, and otherwise gives that page under one key. -/
theorem reference_eq_query (hm : m.Identified) (p : Permission) {collection id : String}
    {a : Entity} (ha : m.entity? collection id = some a) (hcheck : p.check collection id = true)
    (target : String) (sub : Option Selector) :
    (∀ x, a.link target = .single x → ∀ scope scope' : Scope,
      let nested := ((one p collection id ⟨some (.one target sub), scope⟩).run Memory.answer m).1
      let direct := ((one p target x ⟨sub, scope'⟩).run Memory.answer m).1
      nested.toOption
          = direct.toOption.map (fun found => some (Answer.embedded target sub found)) ∧
        (m.offline = false →
          nested = direct.map fun found => some (Answer.embedded target sub found))) ∧
    (a.link target ≠ .invalid → sub.any Answer.isChain = false → ∀ own scope : Scope,
      let linked : Scope := { own with filter := linkCondition collection a target :: own.filter }
      let nested :=
        ((one p collection id ⟨some (.many target sub own), scope⟩).run Memory.answer m).1
      let direct := ((many p target ⟨sub, linked⟩).run Memory.answer m).1
      nested.toOption = direct.toOption.map (fun list =>
          some (.object [("@[" ++ target ++ "]", .array list)])) ∧
        (m.offline = false → nested = direct.map fun list =>
          some (.object [("@[" ++ target ++ "]", .array list)]))) := by
  refine ⟨fun x hlink scope scope' => ?_, fun hlink hsub own scope => ?_⟩
  · dsimp only
    rw [(m.run_eq_eval (reads_one p collection id _)).1, (m.run_eq_eval (reads_one p target x _)).1]
    exact ends_of_online (fun on => eval_one_reference hm on ha hcheck hlink sub scope scope')
      fun off => ⟨eval_one_of_offline off _ _ _, eval_one_of_offline off _ _ _⟩
  · dsimp only
    rw [(m.run_eq_eval (reads_one p collection id _)).1, (m.run_eq_eval (reads_many p target _)).1]
    exact ends_of_online (fun on => eval_many_reference hm on ha hcheck hlink hsub own scope)
      fun off => ⟨eval_one_of_offline off _ _ _, eval_many_of_offline off _ _⟩

/-- A disk and its machine: by the single reference of the disk, and as the page that it picks. -/
theorem reference_eq_query_machine_of_disk :
    let machine : Value := .object [("id", .string "1")]
    let sub : Option Selector := some (.list [.field "id"])
    ((one .unrestricted "disk" "a" ⟨some (.one "vm" sub), .unrestricted⟩).run Memory.answer
        machineOfZeros).1 = .ok (some (.object [("@vm", machine)])) ∧
      ((one .unrestricted "disk" "a" ⟨some (.many "vm" sub .unrestricted), .unrestricted⟩).run
        Memory.answer machineOfZeros).1 = .ok (some (.object [("@[vm]", .array [machine])])) := by
  intro machine sub
  have hm : machineOfZeros.Identified := by decide +kernel
  obtain ⟨a, ha⟩ : ∃ a, machineOfZeros.entity? "disk" "a" = some a :=
    Option.isSome_iff_exists.mp (by decide +kernel)
  have hlink : a.link "vm" = .single "1" := by
    have hfound : (machineOfZeros.entity? "disk" "a").map (·.link "vm") = some (.single "1") := by
      decide +kernel
    rw [ha] at hfound
    exact Option.some.inj hfound
  have hcondition : linkCondition "disk" a "vm" = ⟨"id", .isIn [.string "1"]⟩ := by
    rw [linkCondition, hlink]
    rfl
  have hvalid : a.link "vm" ≠ .invalid := by
    rw [hlink]
    decide
  obtain ⟨hone, hmany⟩ := reference_eq_query hm .unrestricted ha rfl "vm" sub
  refine ⟨((hone "1" hlink .unrestricted .unrestricted).2 rfl).trans ?_,
    ((hmany hvalid rfl .unrestricted .unrestricted).2 rfl).trans ?_⟩
  · have hdirect : ((one .unrestricted "vm" "1" ⟨sub, .unrestricted⟩).run Memory.answer
        machineOfZeros).1 = .ok (some machine) := by decide +kernel
    rw [hdirect]
    rfl
  · have hdirect : ((many .unrestricted "vm" ⟨sub, { Scope.unrestricted with
        filter := [⟨"id", .isIn [.string "1"]⟩] }⟩).run Memory.answer machineOfZeros).1
          = .ok [machine] := by decide +kernel
    rw [hcondition]
    change Except.map _ ((many .unrestricted "vm" ⟨sub, { Scope.unrestricted with
        filter := [⟨"id", .isIn [.string "1"]⟩] }⟩).run Memory.answer machineOfZeros).1 = _
    rw [hdirect]
    rfl

end Query

end LinkedDocs
