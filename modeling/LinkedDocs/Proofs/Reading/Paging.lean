import LinkedDocs.Proofs.Reading.Pages
import Mathlib.Data.Nat.Find

/-!
# A collection read page by page

A client that has no use for a whole list asks for it in pages: the first documents, then the next
ones, until a page is empty. Each of these is a query of its own. It builds its own plan, searches
and sorts anew, and resolves only the references of the documents in its window. Put together, the
pages are the list:

> `many_eq_pages`: if a list is answered, so is every page of it, whatever has been read meanwhile,
> and the pages up to the first empty one are the list, document by document.

The plan of a page differs from that of the list in the scope of its root, which says nothing about
what a document is answered with (`eval_window`). The rest is about windows (`flatMap_pages`).
-/

namespace LinkedDocs

/-! ## Pages of a list -/

section Pages

variable {α : Type} (list : List α) (size : Nat)

/-- A page of a list that is cut into pages of one size. -/
def pageOf (k : Nat) : List α := (list.drop (k * size)).take size

/-- The first pages are the beginning of the list. -/
theorem flatMap_pages (count : Nat) :
    (List.range count).flatMap (pageOf list size) = list.take (count * size) := by
  induction count with
  | zero => rw [Nat.zero_mul, List.take_zero, List.range_zero, List.flatMap_nil]
  | succ count ih =>
    rw [List.range_succ, List.flatMap_append, ih, List.flatMap_singleton, pageOf, Nat.succ_mul,
      List.take_add]

variable {list size}

/-- A page is empty exactly if it starts behind the list. -/
theorem pageOf_eq_nil_iff (hsize : 0 < size) (k : Nat) :
    pageOf list size k = [] ↔ list.length ≤ k * size := by
  rw [pageOf, ← List.length_eq_zero_iff, List.length_take, List.length_drop]
  omega

/-- Some page is the first empty one, and all before it make up the list. -/
theorem exists_first_empty_page (hsize : 0 < size) :
    ∃ count, (∀ k < count, pageOf list size k ≠ []) ∧ pageOf list size count = [] ∧
      (List.range count).flatMap (pageOf list size) = list := by
  have hsome : ∃ k, pageOf list size k = [] := by
    refine ⟨list.length, (pageOf_eq_nil_iff hsize _).mpr ?_⟩
    exact Nat.le_mul_of_pos_right _ hsize
  classical
  refine ⟨Nat.find hsome, fun k hk => Nat.find_min hsome hk, Nat.find_spec hsome, ?_⟩
  rw [flatMap_pages]
  exact List.take_of_length_le ((pageOf_eq_nil_iff hsize _).mp (Nat.find_spec hsome))

end Pages

namespace Query

open Selector (subScopedBy)

variable {m : Memory} {p : Permission} {collection : String} {select : Option Selector}
  {filter : Filter} {order : Order}

/-- A part of an answered list is answered with the same part of the answer. -/
theorem eval_window (distinct : m.Distinct) (hm : m.Identified) {list : List Value}
    (h : (many p collection ⟨select, ⟨filter, order, none, 0⟩⟩).eval m.reply = .ok list)
    (limit skip : Nat) :
    (many p collection ⟨select, ⟨filter, order, some limit, skip⟩⟩).eval m.reply
      = .ok ((list.drop skip).take limit) := by
  obtain ⟨on, plan, hplan⟩ := exists_plan_of_many h
  obtain ⟨hgranted, hresolves⟩ := granted_of_many distinct hm on hplan h
  obtain ⟨-, hlist⟩ := eval_many_scopedBy distinct hm on hplan h
  let scope : Scope := ⟨filter, order, some limit, skip⟩
  have hplan' : Plan.build collection select scope = .ok (plan.withScope scope) :=
    Plan.build_withScope hplan scope
  -- the documents in the window are some of those that have been resolved for the list
  have hpage : m.page p collection [] scope
      = ((m.page p collection [] ⟨filter, order, none, 0⟩).drop skip).take limit := rfl
  have hresolves' : ∀ e ∈ m.page p collection [] scope, (plan.withScope scope).Resolves m p e := by
    intro e he
    rw [hpage] at he
    exact (Plan.resolves_withScope scope e).mpr
      (hresolves e (List.mem_of_mem_drop (List.mem_of_mem_take he)))
  have hwindow : ∃ shown, (many p collection ⟨select, scope⟩).eval m.reply = .ok shown ∧
      (m.page p collection [] scope).map
          (Plain.ofEntity m p (subScopedBy select (some (plan.withScope scope))) collection)
        = shown.map some :=
    eval_many_of_granted distinct hm on hplan' hgranted hresolves'
  obtain ⟨shown, heval, hshown⟩ := hwindow
  dsimp only at hlist
  rw [hpage, Selector.subScopedBy_withScope, List.map_take, List.map_drop, hlist, ← List.map_drop,
    ← List.map_take] at hshown
  rw [heval, (List.map_inj_right fun _ _ => Option.some.inj).mp hshown]

/-- **Paging loses and repeats nothing.** On any store whose documents have ids: if the list of all
documents that pass a filter is answered, whatever is selected and however they are sorted, then for
every page size and every `k` the query for so many documents after the first `k` pages is answered
with a page, also after other reads, and the pages up to the first empty one are the list. -/
theorem many_eq_pages (reachable : m.Reachable) (hm : m.Identified) (p : Permission)
    (collection : String) (select : Option Selector) (filter : Filter) (order : Order)
    {list : List Value}
    (h : ((many p collection ⟨select, ⟨filter, order, none, 0⟩⟩).run Memory.answer m).1 = .ok list)
    {size : Nat} (hsize : 0 < size) :
    ∃ pages : Nat → List Value,
      (∀ (m' : Memory) (k : Nat), m.SameContent m' →
        ((many p collection ⟨select, ⟨filter, order, some size, k * size⟩⟩).run
          Memory.answer m').1 = .ok (pages k)) ∧
      ∃ count, (∀ k < count, pages k ≠ []) ∧ pages count = [] ∧
        (List.range count).flatMap pages = list := by
  rw [(m.run_eq_eval (reads_many p collection _)).1] at h
  refine ⟨pageOf list size, fun m' k hsame => ?_, exists_first_empty_page hsize⟩
  -- a store with the same content answers the same
  have hrun := Dialogue.run_eq_eval (fun _ _ keeps good => Memory.answer_read keeps good)
    (reads_many p collection ⟨select, ⟨filter, order, some size, k * size⟩⟩) hsame
  rw [hrun.1, eval_window reachable.distinct hm h]
  rfl

/-- Two disks, one on each page. -/
theorem many_eq_pages_two_disks :
    ∃ pages : Nat → List Value,
      (∀ (m' : Memory) (k : Nat), machineOfZeros.SameContent m' →
        ((many .unrestricted "disk" ⟨some (.field "id"), ⟨[], [], some 1, k * 1⟩⟩).run
          Memory.answer m').1 = .ok (pages k)) ∧
      ∃ count, (∀ k < count, pages k ≠ []) ∧ pages count = [] ∧
        (List.range count).flatMap pages
          = [.object [("id", .string "a")], .object [("id", .string "b")]] := by
  have reachable : machineOfZeros.Reachable := (Memory.Reachable.empty.seed _ _).seed _ _
  have hm : machineOfZeros.Identified := by decide +kernel
  refine many_eq_pages reachable hm .unrestricted "disk" (some (.field "id")) [] [] ?_ Nat.one_pos
  have hplan : Plan.build "disk" (some (.field "id")) .unrestricted
      = .ok (.node ⟨0, "disk", ["id"], false, .unrestricted⟩ [] []) := rfl
  have hpage : machineOfZeros.page .unrestricted "disk" [] .unrestricted
      = machineOfZeros.entities "disk" := by
    show Order.sort [] _ = _
    rw [Order.sort_nil]
    decide +kernel
  have hanswer : ∃ list, (many .unrestricted "disk" ⟨some (.field "id"), .unrestricted⟩).eval
        machineOfZeros.reply = .ok list ∧
      (machineOfZeros.page .unrestricted "disk" [] .unrestricted).map
        (Plain.ofEntity machineOfZeros .unrestricted (some (.field "id")) "disk") = list.map some :=
    eval_many_of_granted reachable.distinct hm rfl hplan rfl fun _ _ => ⟨trivial, trivial⟩
  obtain ⟨list, heval, hlist⟩ := hanswer
  rw [hpage] at hlist
  have hshown : list.map some
      = [Value.object [("id", .string "a")], .object [("id", .string "b")]].map some :=
    hlist.symm.trans (by decide +kernel)
  rw [(machineOfZeros.run_eq_eval (reads_many _ _ _)).1, ← Scope.unrestricted, heval,
    (List.map_inj_right fun _ _ => Option.some.inj).mp hshown]

end Query

end LinkedDocs
