import LinkedDocs.Proofs.Pass.Calls
import LinkedDocs.Proofs.Pass.Completion

/-!
# The outcome of a pass

A whole pass begins with nothing filed. It fails only if something that is needed fails, and
otherwise all that is needed is filed in the end:

> `Fetch.outcome`: how a pass ends that goes by a schedule.

A schedule that leaves every list in its own order changes neither the result of a pass nor what it
files nor its calls (`Fetch.erases_resolveBy`, `Scheduled.Erases.eval_eq`).
-/

namespace LinkedDocs

/-! ## Passes as fetches -/

theorem Fetch.erases_resolveBy (p : Permission) (f : Fetch) :
    Scheduled.Erases (f.resolveBy .own p) (f.resolve p) := by
  cases f with
  | one node id =>
    rw [resolveBy, resolve, map_eq_pure_bind, map_eq_pure_bind]
    exact (Scheduled.erases_one p node id).bind fun entity => Scheduled.erases_pure entity.toList
  | many node parent link => exact Scheduled.erases_many p node parent link

/-- In whatever order, a pass does nothing but read. -/
theorem Fetch.reads_resolveBy (schedule : Schedule) (p : Permission) (f : Fetch) (course : Course) :
    (((f.resolveBy schedule p).run course).start .empty).OnlyAsks Call.isRead := by
  have hcomposed := Pass.composed_onlyAsks p
  have hguarded : ∀ course, Pass.OnlyAsks p.Guarded ((f.resolveBy schedule p).run course) := by
    cases f with
    | one node id =>
      rw [resolveBy, map_eq_pure_bind]
      exact hcomposed.scheduled_bind (hcomposed.scheduled_one schedule node id)
        fun _ course => hcomposed.done _
    | many node parent link => exact hcomposed.scheduled_many schedule node parent link
  exact (hguarded course .empty).mono fun _ guarded => guarded.isRead

theorem Fetch.reads_resolve (p : Permission) (f : Fetch) :
    ((f.resolve p).start .empty).OnlyAsks Call.isRead := by
  have hcomposed := Pass.composed_onlyAsks p
  have hguarded : Pass.OnlyAsks p.Guarded (f.resolve p) := by
    cases f with
    | one node id => exact hcomposed.map (hcomposed.one node id) Option.toList
    | many node parent link => exact hcomposed.many node parent link
  exact (hguarded .empty).mono fun _ guarded => guarded.isRead

/-- Leading a step without its course. -/
theorem Scheduled.Erases.eval_eq {α : Type} {x : Scheduled α} {step : Pass α} (h : Erases x step)
    (reply : (call : Call) → call.Answer) (course : Course) (memo : Memo) :
    Pass.eval reply step memo = ((Pass.eval reply (x.run course) memo).1.map Prod.fst,
        (Pass.eval reply (x.run course) memo).2) ∧
      Pass.calls reply step memo = Pass.calls reply (x.run course) memo := by
  rw [← h course, map_eq_pure_bind, Pass.eval_bind, Pass.calls_bind]
  obtain ⟨result, left⟩ := Pass.eval reply (x.run course) memo
  cases result with
  | error error => exact ⟨rfl, List.append_nil _⟩
  | ok ended => exact ⟨rfl, List.append_nil _⟩

variable {reply : (call : Call) → call.Answer} {p : Permission} {start : Fetch} {memo memo' : Memo}

/-- How a pass ends: everything that is needed is filed, or something that is needed fails. -/
theorem Fetch.outcome (keyed : Keyed reply) (hnodup : start.node.ids.Nodup) (schedule : Schedule) :
    (∃ error memo, Pass.eval reply ((start.resolveBy schedule p).run .start) .empty
        = (.error error, memo) ∧ ¬ start.Succeeds reply p) ∨
      ∃ found course memo,
        Pass.eval reply ((start.resolveBy schedule p).run .start) .empty
          = (.ok (found, course), memo) ∧
        start.found reply p = .ok found ∧ memo.Correct reply p start ∧
        memo.Completes reply p start := by
  have hgoes := goes_resolveBy keyed hnodup schedule (.refl : Needed reply p start start)
    (s := ⟨.empty, .start⟩) Memo.correct_empty
  cases heval : Pass.eval reply ((start.resolveBy schedule p).run .start) .empty with
  | mk result memo =>
    cases result with
    | error error => exact .inl ⟨error, memo, rfl, hgoes.fails ⟨error, memo, heval⟩⟩
    | ok ended =>
      obtain ⟨found, course⟩ := ended
      have hleads : Scheduled.Leads reply (start.resolveBy schedule p) ⟨.empty, .start⟩ found
          ⟨memo, course⟩ (Pass.calls reply ((start.resolveBy schedule p).run .start) .empty) :=
        ⟨heval, rfl⟩
      obtain ⟨⟨hfound, hcomplete⟩, hprogress⟩ := hgoes.ends hleads
      exact .inr ⟨found, course, memo, rfl, hfound, hprogress.correct, hcomplete⟩

theorem Plan.nodup_of_build {collection : String} {select : Option Selector} {scope : Scope}
    {plan : Plan} (h : build collection select scope = .ok plan) : plan.ids.Nodup := by
  obtain ⟨-, -, count, hperm⟩ := build_numbers h
  exact hperm.nodup_iff.mpr List.nodup_range

namespace Pass

/-- A machine on a host that is not there, and its disk. -/
def lostHost : Memory :=
  let machine := Entity.withId (Dict.ofList [("host", .string "h")]) "1"
  let disk := Entity.withId (Dict.ofList [("vm", .string "1")]) "a"
  (Memory.answer (Memory.answer .empty (.insert "vm" [machine])).2 (.insert "disk" [disk])).2

/-- Machines with their hosts and disks, and the machines of the disks. -/
def machinePlan : Plan :=
  .node ⟨0, "vm", [], false, .unrestricted⟩
    [("host", .node ⟨1, "host", [], true, .unrestricted⟩ [] [])]
    [("disk", .node ⟨2, "disk", [], false, .unrestricted⟩
      [("vm", .node ⟨3, "vm", [], true, .unrestricted⟩ [] [])] [])]

end Pass

end LinkedDocs
