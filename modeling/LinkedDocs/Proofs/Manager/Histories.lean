import LinkedDocs.Proofs.Manager.Success
import LinkedDocs.Proofs.Query.Refusals
import LinkedDocs.Proofs.Store.Identity

/-!
# Histories of a service

Clients send a service whatever they like, in any order: changes and reads, with any bodies. The
sink may refuse what it is given, and any call to the store may fail, before the store has carried
it out or after. The manager stands between the clients and a store that would do as it is told, and
it is enough that it asks for `Call.Proper` calls only, whatever it is answered:

> `Service.history_leaves_readable`: after any history every document has an id, ids are distinct
> within a collection, no collection is empty, and so no read that reaches the store can fail for a
> reason that lies in the store.
-/

namespace LinkedDocs

/-! ## Stores behind servers that fail -/

/-- A sound store that answers. -/
structure Memory.Healthy (m : Memory) : Prop extends Memory.Sound m where
  online : m.offline = false

theorem Memory.Healthy.answer {m : Memory} (h : m.Healthy) {call : Call} (proper : call.Proper) :
    (Memory.answer m call).2.Healthy :=
  ⟨h.toSound.answer proper, (offline_answer m call).trans h.online⟩

namespace Server

theorem relays_unreliable (faults : Nat → Option Fault) :
    (Memory.answer.unreliable faults).Relays Prod.snd := by
  rintro ⟨calls, m⟩ call
  unfold unreliable
  dsimp only
  cases faults (calls + 1) with
  | none => exact .inr rfl
  | some fault =>
    obtain ⟨error, late⟩ := fault
    cases late with
    | false => exact .inl rfl
    | true => exact .inr rfl

/-- A dialogue of proper calls leaves a healthy store, however its calls are answered. -/
theorem Relays.run_healthy {α σ : Type} {server : Server σ} {store : σ → Memory}
    (relays : server.Relays store) {d : Dialogue α} (hd : d.OnlyAsks Call.Proper) {s : σ}
    (hs : (store s).Healthy) : (store (d.run server s).2).Healthy :=
  relays.run (fun proper healthy => healthy.answer proper) hd hs

end Server

/-! ## What clients ask for -/

/-- What a client asks for, with what it sends. -/
inductive Demand where
  | change (op : Operation)
  /-- Reads one document. -/
  | get (permission : Permission) (collection id : String) (request : Value)
  /-- Reads a page of a collection. -/
  | list (permission : Permission) (collection : String) (request : Value)

namespace Manager

/-- The queries of a read ask for proper calls, so the read does. -/
theorem onlyAsks_reading {α : Type} {query : Request → Query.Outcome α}
    (hquery : ∀ r, (query r).OnlyAsks Call.isRead) (request : Value) (cache : SelectorCache) :
    (reading request query cache).1.OnlyAsks Call.Proper := by
  unfold reading
  split
  · trivial
  · exact ((hquery _).mono fun _ => Call.Proper.of_isRead).bind fun _ => trivial

end Manager

namespace Service

variable {σ τ : Type} {server : Server σ} {sink : Sink τ} {store : σ → Memory}

/-- Gives a client what it asks for; this is what is left then. -/
def serve (server : Server σ) (sink : Sink τ) : Demand → Service σ τ → Service σ τ
  | .change op, s => (s.perform server sink op).2
  | .get permission collection id request, s =>
    (s.read server (Manager.get permission collection id request)).2
  | .list permission collection request, s =>
    (s.read server (Manager.list permission collection request)).2

/-- Gives clients what they ask for, one after another. -/
def serveAll (server : Server σ) (sink : Sink τ) : List Demand → Service σ τ → Service σ τ
  | [], s => s
  | demand :: demands, s => serveAll server sink demands (s.serve server sink demand)

/-- Whatever a client asks for, it leaves a healthy store. -/
theorem healthy_serve (relays : server.Relays store) (demand : Demand) {s : Service σ τ}
    (hs : (store s.store).Healthy) : (store (s.serve server sink demand).store).Healthy := by
  cases demand with
  | change op => exact relays.run_healthy (op.onlyAsks_proper []) hs
  | get permission collection id request =>
    refine relays.run_healthy (Manager.onlyAsks_reading (fun r => ?_) request s.selectors) hs
    exact Query.reads_one permission collection id r
  | list permission collection request =>
    refine relays.run_healthy (Manager.onlyAsks_reading (fun r => ?_) request s.selectors) hs
    exact Query.reads_many permission collection r

/-- Whatever clients ask for, they leave a healthy store. -/
theorem healthy_serveAll (relays : server.Relays store) (demands : List Demand)
    {s : Service σ τ} (hs : (store s.store).Healthy) :
    (store (s.serveAll server sink demands).store).Healthy := by
  induction demands generalizing s with
  | nil => exact hs
  | cons demand demands ih => exact ih (healthy_serve relays demand hs)

/-- **No client can spoil what others read.** Take the store that any history has led to from the
empty one, with any bodies and requests, any sink, any remembered selectors, and any store calls
failing on the way. Every document in it has an id in string form, the ids of a collection are
distinct, and no collection that is there is empty. If a read of a document or of a page fails on
that store, under whatever permission and with whatever request, then because its request is
malformed or because the caller may not see what it asks for; it does not fail with an error of the
store. -/
theorem history_leaves_readable (faults : Nat → Option Server.Fault) (sink : Sink τ)
    (demands : List Demand) (selectors : SelectorCache) (t : τ) :
    let left := serveAll (Memory.answer.unreliable faults) sink demands ⟨(0, .empty), selectors, t⟩
    let m := left.store.2
    (∀ collection, ∀ document ∈ m.documents collection, ∃ id,
        document.get? idField = some (.string id)) ∧
      (∀ collection, ((m.documents collection).map Memory.storedId).Nodup) ∧
      (∀ collection ∈ m.collections.keys, m.documents collection ≠ []) ∧
      ∀ (permission : Permission) (collection : String) (request : Value)
          (remembered : SelectorCache) (error : ManagerError),
        (∀ id, (Service.read Memory.answer (Manager.get permission collection id request)
            ⟨m, remembered, left.sink⟩).1 = .error error →
          error.Refused ∧ error.status ≠ 500) ∧
        ((Service.read Memory.answer (Manager.list permission collection request)
            ⟨m, remembered, left.sink⟩).1 = .error error →
          error.Refused ∧ error.status ≠ 500) := by
  intro left m
  have hstart : Memory.Healthy (Prod.snd (0, Memory.empty)) := ⟨Memory.sound_empty, rfl⟩
  obtain ⟨sound, online⟩ : m.Healthy :=
    healthy_serveAll (Server.relays_unreliable faults) demands hstart
  have identified := sound.identified
  have hstatus : ∀ {error : ManagerError}, error.Refused → error.Refused ∧ error.status ≠ 500 := by
    intro error refused
    rcases refused.status with h | h <;> exact ⟨refused, by omega⟩
  refine ⟨fun collection document hd => ?_, fun collection => ?_,
    fun collection => (sound.tidy.mem_keys_iff collection).mp,
    fun permission collection request remembered error => ⟨fun id h => ?_, fun h => ?_⟩⟩
  · obtain ⟨id, hid⟩ := Option.isSome_iff_exists.mp (identified collection document hd)
    exact ⟨id, Memory.storedId_eq_some.mp hid⟩
  · rw [Memory.map_storedId_of_isSome (identified collection)]
    exact (sound.distinct collection).map fun _ _ => Option.some.inj
  · exact hstatus (Manager.refused_of_get identified online h)
  · exact hstatus (Manager.refused_of_list identified online h)

end Service

end LinkedDocs
