import LinkedDocs.Proofs.Pass.Outcome
import LinkedDocs.Proofs.Pass.Sequential
import Mathlib

/-!
# What a pass fetches

Whatever turns its tasks take, and however late the store answers, a pass fetches what is needed,
each fetch once (`fetches_exactly`). Of two resolutions that ask for the same, one fetches. The
other one is a hit if it comes when the answer is there, and is not counted if it has to wait for
it; so the fetches and the hits add up to the resolutions only where none has waited:

> `not_counted_shared_cluster`: two machines of one cluster, the second of which waits for the
> cluster that the first one has asked for.

With a store that answers each call at once no resolution waits, since the pass then is the run in
which the first task always takes the turn.

This is stated for any steady server, and so holds of a store in memory whatever calls it has been
through (`Memory.Reachable.steady`).
-/

namespace LinkedDocs.Tasks

variable {σ : Type} {server : Server σ} {s : σ} {collection : String} {select : Option Selector}
  {scope : Scope} {plan : Plan}

/-- A pass that succeeds goes in the same way by a schedule that leaves every list in its own
order. -/
theorem leads_of_observe (steady : server.Steady s) {p : Permission} {start : Fetch}
    {found : List Entity} {memo : Memo} {calls : List Call}
    (h : ((start.resolve p).start .empty).observe server s = ((.ok found, memo), calls)) :
    ∃ course, Scheduled.Leads (fun call => (server s call).1) (start.resolveBy .own p)
      ⟨.empty, .start⟩ found ⟨memo, course⟩ calls := by
  obtain ⟨heval, hcalls⟩ :=
    (start.erases_resolveBy p).eval_eq (fun call => (server s call).1) .start .empty
  rw [steady.observe_eq (start.reads_resolve p), Prod.mk.injEq] at h
  obtain ⟨hended, hmade⟩ := h
  change Pass.eval _ (start.resolve p) .empty = _ at hended
  change Pass.calls _ (start.resolve p) .empty = _ at hmade
  rw [heval] at hended
  rw [hcalls] at hmade
  cases hscheduled : Pass.eval (fun call => (server s call).1)
      ((start.resolveBy .own p).run .start) .empty with
  | mk result left =>
    rw [hscheduled] at hended
    cases result with
    | error error => cases hended
    | ok given =>
      obtain ⟨found', course⟩ := given
      cases hended
      exact ⟨course, hscheduled, hmade⟩

/-- A run that has ended has counted what the pass has that it mirrors, and nothing has waited. -/
theorem Mirrors.counts {stage : Stage} {ended : Tasks} (h : Mirrors [] stage ended)
    (hcounts : ended.gets + ended.finds + ended.hits + ended.awaited = ended.invocations)
    (hlive : ended.live = []) :
    stage.memo.gets + stage.memo.finds + stage.memo.hits = ended.invocations ∧
      stage.course.resolutions = ended.invocations := by
  have hinvocations := h.invocations
  rw [show ended.unresolved = 0 by rw [unresolved, hlive]; rfl] at hinvocations
  rw [h.gets, h.finds, h.hits, h.awaited] at hcounts
  exact ⟨hcounts, hinvocations.symm⟩

/-- **A pass fetches exactly what is needed.** Take a store that holds still, a plan, and a pass
that begins with a fetch at the root.

Let its tasks take turns in any order, with any limit on the calls in flight, until none is left.
The calls, in their order, are then those of a list of fetches. No two of these are at one node for
one id, or for one referring document. A fetch is among them if and only if it is the first one, or
it is what a document refers to over a branch of the plan that has been met at the start of the
branch: a single link gives the look-up of a document, whether it exists or not, and a link that is
not invalid the search for a page. The look-ups and searches are counted as such. Together with the
hits, and the resolutions that have waited for another one, they are as many as the resolutions.

If the pass succeeds with a store that answers each call before the next step, it is such a run. It
has made the same calls and has the same counts, and no resolution has waited; so its fetches and
hits are as many as the resolutions, which the pass itself counts when it goes by a schedule that
leaves every list in its own order. -/
theorem fetches_exactly (steady : server.Steady s)
    (hplan : Plan.build collection select scope = .ok plan) (p : Permission) {start : Fetch}
    (hstart : start.node = plan) (limit : Nat) :
    let reply := fun call => (server s call).1
    (∀ turns ended, (begin start).run reply p limit turns = .ok ended → ended.live = [] →
      ∃ fetches : List Fetch,
        fetches.map (Fetch.call p) = ended.calls.map .ok ∧
        (fetches.map Fetch.key).Nodup ∧
        (∀ f, f ∈ fetches ↔ f = start ∨ ∃ b ∈ plan.branches, ∃ e,
          Met reply p start b.parent e ∧ b.fetch? e = some f) ∧
        ended.gets = fetches.countP (·.isOne) ∧ ended.finds = fetches.countP (!·.isOne) ∧
        ended.gets + ended.finds + ended.hits + ended.awaited = ended.invocations) ∧
      ∀ found memo calls,
        ((start.resolve p).start .empty).observe server s = ((.ok found, memo), calls) →
        ∃ turns ended, (begin start).run reply p limit turns = .ok ended ∧ ended.live = [] ∧
          ended.calls = calls ∧ ended.gets = memo.gets ∧ ended.finds = memo.finds ∧
          ended.hits = memo.hits ∧ ended.awaited = 0 ∧
          memo.gets + memo.finds + memo.hits = ended.invocations ∧
          ∃ course, (((start.resolveBy .own p).run .start).start .empty).observe server s
              = ((.ok (found, course), memo), calls) ∧
            course.resolutions = ended.invocations := by
  subst hstart
  intro reply
  have hnodup := Plan.nodup_of_build hplan
  constructor
  · intro turns ended hrun hended
    obtain ⟨fetches, hsound⟩ := run_sound steady.keyed hnodup hrun
    refine ⟨fetches, hsound.account.calls, hsound.distinct hended, fun f => ?_,
      hsound.account.gets, hsound.account.finds, hsound.counts hended⟩
    rw [hsound.mem_iff_needed steady.keyed hnodup hended, needed_iff hnodup]
  · intro found memo calls hpass
    obtain ⟨course, hleads⟩ := leads_of_observe steady hpass
    obtain ⟨count, ended, hrun, hended, mirrors, hcalls⟩ := run_of_leads limit hnodup hleads
    obtain ⟨fetches, hsound⟩ := run_sound steady.keyed hnodup hrun
    obtain ⟨hcounts, hresolutions⟩ := mirrors.counts (hsound.counts hended) hended
    refine ⟨_, ended, hrun, hended, hcalls, mirrors.gets, mirrors.finds, mirrors.hits,
      mirrors.awaited, hcounts, course, ?_, hresolutions⟩
    rw [steady.observe_eq (start.reads_resolveBy .own p .start)]
    exact Prod.ext hleads.1 hleads.2

/-- A machine on a host that does not exist, and with a disk that refers back to it, is read in
three look-ups and one search. -/
theorem fetches_exactly_lost_host :
    ∃ turns ended, (begin (.one Pass.machinePlan "1")).run
        (fun call => (Memory.answer Pass.lostHost call).1) .unrestricted 4 turns = .ok ended ∧
      ended.live = [] ∧ ended.hits = 0 ∧ ended.awaited = 0 ∧ ended.invocations = 4 ∧
      ∃ fetches : List Fetch, fetches.map (Fetch.call .unrestricted) = ended.calls.map .ok ∧
        (fetches.map Fetch.key).Nodup ∧ fetches.countP (·.isOne) = 3 ∧
        fetches.countP (!·.isOne) = 1 := by
  have hplan : Plan.build "vm" (some (.list [.one "host" none,
      .many "disk" (some (.one "vm" none)) .unrestricted])) .unrestricted
        = .ok Pass.machinePlan := rfl
  have hsteady : Server.Steady Memory.answer Pass.lostHost :=
    Memory.Reachable.steady (.call _ (.call _ .empty))
  have hstart : (Fetch.one Pass.machinePlan "1").node = Pass.machinePlan := rfl
  let outcome := (((Fetch.one Pass.machinePlan "1").resolve .unrestricted).start .empty).observe
    Memory.answer Pass.lostHost
  have hok : outcome.1.1.toOption.isSome = true := by decide +kernel
  have hgets : outcome.1.2.gets = 3 := by decide +kernel
  have hfinds : outcome.1.2.finds = 1 := by decide +kernel
  have hhits : outcome.1.2.hits = 0 := by decide +kernel
  obtain ⟨found, hfound⟩ : ∃ found, outcome.1.1 = .ok found := by
    cases hresult : outcome.1.1 with
    | error error =>
      rw [hresult] at hok
      cases hok
    | ok found => exact ⟨found, rfl⟩
  obtain ⟨hruns, hpasses⟩ := fetches_exactly hsteady hplan .unrestricted hstart 4
  obtain ⟨turns, ended, hrun, hlive, -, hsameGets, hsameFinds, hsameHits, hawaited, hcounts, -⟩ :=
    hpasses found outcome.1.2 outcome.2 (Prod.ext (Prod.ext hfound rfl) rfl)
  obtain ⟨fetches, hcalls, hdistinct, -, hones, hmanys, -⟩ := hruns turns ended hrun hlive
  refine ⟨turns, ended, hrun, hlive, hsameHits.trans hhits, hawaited, ?_, fetches, hcalls,
    hdistinct, ?_, ?_⟩
  · rw [← hcounts, hgets, hfinds, hhits]
  · rw [← hones, hsameGets, hgets]
  · rw [← hmanys, hsameFinds, hfinds]

/-- Two machines of one cluster. -/
def sharedCluster : Memory :=
  let machine (id : String) := Entity.withId (Dict.ofList [("cluster", .string "1")]) id
  let cluster := Entity.withId (Dict.ofList [("name", .string "shared")]) "1"
  (Memory.answer (Memory.answer .empty (.insert "vm" [machine "1", machine "2"])).2
    (.insert "cluster" [cluster])).2

/-- Machines with their clusters. -/
def clusterPlan : Plan :=
  .node ⟨0, "vm", [], false, .unrestricted⟩
    [("cluster", .node ⟨1, "cluster", [], true, .unrestricted⟩ [] [])] []

/-- The tasks of two machines of one cluster take turns as they do when the store is slow: both
have been asked to resolve the cluster before it is there. The second one is neither a fetch nor a
hit, and the counts do not add up to the resolutions. -/
theorem not_counted_shared_cluster :
    Plan.build "vm" (some (.one "cluster" none)) .unrestricted = .ok clusterPlan ∧
      Server.Steady Memory.answer sharedCluster ∧
      ∃ turns ended, (begin (.many clusterPlan none [])).run
          (fun call => (Memory.answer sharedCluster call).1) .unrestricted 4 turns = .ok ended ∧
        ended.live = [] ∧ ended.gets = 1 ∧ ended.finds = 1 ∧ ended.hits = 0 ∧
        ended.invocations = 3 ∧ ended.gets + ended.finds + ended.hits ≠ ended.invocations := by
  refine ⟨rfl, Memory.Reachable.steady (.call _ (.call _ .empty)), ?_⟩
  -- the second machine is expanded and comes to the cluster while the look-up is in flight
  refine ⟨List.replicate 8 0 ++ [2, 0, 2] ++ List.replicate 6 0, _, by cbv, ?_⟩
  simp

end LinkedDocs.Tasks
