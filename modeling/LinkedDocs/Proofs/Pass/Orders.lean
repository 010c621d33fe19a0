import LinkedDocs.Answer
import LinkedDocs.Proofs.Pass.Outcome

/-!
# The order of a pass

What is filed at the end of a pass is fixed by what is needed (`Memo.filed_eq`), and answers are
written from what is filed alone (`Answer.ofEntity_eq_of_filed`). So the order in which references
are followed does not matter:

> `eq_in_every_order`: either the pass fails in every order, or it succeeds in every order, and then
> the same documents and pages are filed and the same answers are written.
-/

namespace LinkedDocs

variable {reply : (call : Call) → call.Answer} {p : Permission} {start : Fetch} {memo memo' : Memo}

/-- What is filed in the end is fixed by what is needed. -/
theorem Memo.filed_eq (hcorrect : memo.Correct reply p start)
    (hcomplete : memo.Completes reply p start) (hcorrect' : memo'.Correct reply p start)
    (hcomplete' : memo'.Completes reply p start) : memo'.filed = memo.filed := by
  have hkept : ∀ {m m' : Memo}, m.Correct reply p start → m'.Completes reply p start →
      ∀ {key found}, m.filed key = some found → m'.filed key = some found := by
    intro m m' hm hm' key found hfiled
    obtain ⟨f, hneeded, rfl, hfound, -⟩ := hm.filed hfiled
    obtain ⟨found', hfound', hfiled'⟩ := hm' f hneeded
    rw [hfound] at hfound'
    cases hfound'
    exact hfiled'
  funext key
  refine Option.ext fun found => ?_
  exact ⟨hkept hcorrect' hcomplete, hkept hcorrect hcomplete'⟩

/-- Documents and pages are found where they are filed. -/
theorem Memo.entity?_eq_of_filed (h : memo'.filed = memo.filed) (node : Nat) (id : String) :
    memo'.entity? node id = memo.entity? node id := by
  have hlist : Function.Injective (Option.toList : Option Entity → List Entity) := by
    intro a b hab
    cases a <;> cases b <;> simp_all
  exact Option.map_injective hlist (congrFun h (node, .one id))

theorem Memo.page?_eq_of_filed (h : memo'.filed = memo.filed) (node : Nat)
    (parent : Option String) : memo'.page? node parent = memo.page? node parent :=
  congrFun h (node, .many parent)

namespace Answer

mutual

/-- An answer is written from what is filed alone. -/
theorem write_eq_of_filed (h : memo'.filed = memo.filed) :
    ∀ (selector : Selector) (plan : Plan) (e : Entity) (start : String) (out : Fields),
      write memo' selector plan e start out = write memo selector plan e start out
  | .wildcard, _, _, _, _ => rfl
  | .field _, _, _, _, _ => rfl
  | .list items, plan, e, start, out => writeItems_eq_of_filed h items plan e start out
  | .one target sub, plan, e, start, out => by
    rw [write, write]
    cases plan.ones.lookup target with
    | none => rfl
    | some child =>
      have hreferenced : referenced? memo' child e target = referenced? memo child e target := by
        unfold referenced?
        simp only [Memo.entity?_eq_of_filed h]
      dsimp only
      rw [hreferenced]
      cases referenced? memo child e target with
      | none => rfl
      | some found => exact writeOne_eq_of_filed h sub child found _ out
  | .many target sub _, plan, e, start, out => by
    rw [write, write]
    cases plan.manys.lookup target with
    | none => rfl
    | some child =>
      have hmembers : members? memo' child e = members? memo child e :=
        Memo.page?_eq_of_filed h child.info.id (some e.id)
      dsimp only
      rw [hmembers]
      cases members? memo child e with
      | none => rfl
      | some members => exact writeMany_eq_of_filed h sub child members _ out

theorem writeItems_eq_of_filed (h : memo'.filed = memo.filed) :
    ∀ (items : List Selector) (plan : Plan) (e : Entity) (start : String) (out : Fields),
      writeItems memo' items plan e start out = writeItems memo items plan e start out
  | [], _, _, _, _ => rfl
  | item :: items, plan, e, start, out => by
    rw [writeItems, writeItems, write_eq_of_filed h item plan e start out]
    exact writeItems_eq_of_filed h items plan e start _

theorem writeOne_eq_of_filed (h : memo'.filed = memo.filed) :
    ∀ (sub : Option Selector) (child : Plan) (found : Entity) (key : String) (out : Fields),
      writeOne memo' sub child found key out = writeOne memo sub child found key out
  | none, _, _, _, _ => rfl
  | some .wildcard, _, _, _, _ => rfl
  | some (.list items), child, found, key, out => by
    rw [writeOne, writeOne, writeItems_eq_of_filed h items child found "" .empty]
  | some (.field name), child, found, key, out =>
    write_eq_of_filed h (.field name) child found _ out
  | some (.one target sub), child, found, key, out =>
    write_eq_of_filed h (.one target sub) child found _ out
  | some (.many target sub scope), child, found, key, out =>
    write_eq_of_filed h (.many target sub scope) child found _ out

theorem writeMany_eq_of_filed (h : memo'.filed = memo.filed) :
    ∀ (sub : Option Selector) (child : Plan) (members : List Entity) (key : String) (out : Fields),
      writeMany memo' sub child members key out = writeMany memo sub child members key out
  | none, _, _, _, _ => rfl
  | some .wildcard, _, _, _, _ => rfl
  | some (.field _), _, _, _, _ => rfl
  | some (.list items), child, members, key, out => by
    rw [writeMany, writeMany]
    simp only [writeItems_eq_of_filed h items child]
  | some (.one target sub), child, members, key, out => by
    rw [writeMany, writeMany]
    simp only [write_eq_of_filed h (.one target sub) child]
    all_goals simp
  | some (.many target sub scope), child, members, key, out => by
    rw [writeMany, writeMany]
    simp only [write_eq_of_filed h (.many target sub scope) child]
    all_goals simp

end

theorem ofEntity_eq_of_filed (h : memo'.filed = memo.filed) (plan : Plan)
    (select : Option Selector) (e : Entity) :
    ofEntity memo' plan select e = ofEntity memo plan select e := by
  cases select with
  | none => rfl
  | some selector => exact congrArg Value.ofFields (write_eq_of_filed h selector plan e "" .empty)

end Answer

namespace Pass

variable {σ : Type} {server : Server σ} {s : σ} {collection : String} {select : Option Selector}
  {scope : Scope} {plan : Plan}

/-- **The order in which a pass goes does not matter.** Take a store that holds still, a plan, and a
pass that begins with a fetch at the root. A schedule lets the references of each document, and the
documents of each page, be resolved in any order, chosen anew each time. If the pass fails it fails
by every schedule. Otherwise it succeeds by every schedule, with the same result; the same document
is filed for every node and id, and the same page for every node and referring document, so that the
same answers are written. -/
theorem eq_in_every_order (steady : server.Steady s)
    (hplan : Plan.build collection select scope = .ok plan) (p : Permission) {start : Fetch}
    (hstart : start.node = plan) (schedule : Schedule) :
    let own := (((start.resolve p).start .empty).observe server s).1
    let other := ((((start.resolveBy schedule p).run .start).start .empty).observe server s).1
    (∃ error error', own.1 = .error error ∧ other.1 = .error error') ∨
      ∃ found course, own.1 = .ok found ∧ other.1 = .ok (found, course) ∧
        (∀ node id, other.2.entity? node id = own.2.entity? node id) ∧
        (∀ node parent, other.2.page? node parent = own.2.page? node parent) ∧
        ∀ wanted, found.map (Answer.ofEntity other.2 plan wanted)
          = found.map (Answer.ofEntity own.2 plan wanted) := by
  subst hstart
  have hnodup := Plan.nodup_of_build hplan
  obtain ⟨heval, -⟩ :=
    (start.erases_resolveBy p).eval_eq (fun call => (server s call).1) .start .empty
  rw [steady.observe_eq (start.reads_resolve p),
    steady.observe_eq (start.reads_resolveBy schedule p .start)]
  intro own other
  have hother : other = Pass.eval (fun call => (server s call).1)
    ((start.resolveBy schedule p).run .start) .empty := rfl
  have hown : own = _ := heval
  rw [hown, hother]
  rcases Fetch.outcome steady.keyed hnodup .own with ⟨error, left, hfailed, hnot⟩ |
      ⟨found, course, memo, hdone, hfound, hcorrect, hcomplete⟩
  · rcases Fetch.outcome steady.keyed hnodup schedule with
      ⟨error', left', hfailed', -⟩ | ⟨_, _, memo', -, -, -, hcomplete'⟩
    · rw [hfailed, hfailed']
      exact .inl ⟨error, error', rfl, rfl⟩
    · exact absurd hcomplete'.succeeds hnot
  · rcases Fetch.outcome steady.keyed hnodup schedule with ⟨_, _, -, hnot'⟩ |
      ⟨found', course', memo', hdone', hfound', hcorrect', hcomplete'⟩
    · exact absurd hcomplete.succeeds hnot'
    · -- both orders succeed: what is filed is fixed
      rw [hfound] at hfound'
      cases hfound'
      rw [hdone, hdone']
      have hfiled : memo'.filed = memo.filed :=
        Memo.filed_eq hcorrect hcomplete hcorrect' hcomplete'
      refine .inr ⟨found, course', rfl, rfl, Memo.entity?_eq_of_filed hfiled,
        Memo.page?_eq_of_filed hfiled, fun wanted => ?_⟩
      exact List.map_congr_left fun e _ => Answer.ofEntity_eq_of_filed hfiled start.node wanted e

/-- The references of a machine are followed the other way round, the disks before the host. The
search for the disks then comes before the look-up of the host, and nothing else differs. -/
theorem eq_in_every_order_disk_first :
    let backwards : Schedule := ⟨fun _ items => items.reverse, fun _ items => items.reverse_perm⟩
    let start := Fetch.one machinePlan "1"
    let own := ((start.resolve .unrestricted).start .empty).observe Memory.answer lostHost
    let other := (((start.resolveBy backwards .unrestricted).run .start).start .empty).observe
      Memory.answer lostHost
    let isSearch : Call → Bool := fun
      | .find .. => true
      | _ => false
    own.2.map isSearch = [false, false, true, false] ∧
      other.2.map isSearch = [false, true, false, false] ∧
      ∃ found course, own.1.1 = .ok found ∧ other.1.1 = .ok (found, course) ∧
        ∀ wanted, found.map (Answer.ofEntity other.1.2 machinePlan wanted)
          = found.map (Answer.ofEntity own.1.2 machinePlan wanted) := by
  intro backwards start own other isSearch
  have hplan : Plan.build "vm" (some (.list [.one "host" none,
      .many "disk" (some (.one "vm" none)) .unrestricted])) .unrestricted = .ok machinePlan := rfl
  have hsteady : Server.Steady Memory.answer lostHost :=
    Memory.Reachable.steady (.call _ (.call _ .empty))
  have hok : own.1.1.toOption.isSome = true := by decide +kernel
  refine ⟨by decide +kernel, by decide +kernel, ?_⟩
  have hstart : start.node = machinePlan := rfl
  rcases eq_in_every_order hsteady hplan .unrestricted hstart backwards with
    ⟨error, -, hfailed, -⟩ | ⟨found, course, hown, hother, -, -, hanswers⟩
  · change own.1.1 = .error error at hfailed
    rw [hfailed] at hok
    cases hok
  · exact ⟨found, course, hown, hother, hanswers⟩

end Pass

end LinkedDocs
