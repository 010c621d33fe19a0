import LinkedDocs.Manager

/-!
# The service

A service is where the manager meets a store, a sink and the selectors that are remembered. Requests
are taken one after another. A write is led with the store to its end, and only then is what it
announces handed to the sink; so whatever the sink answers, the outcome of the write and the state
of the store are the same (`write_outcome`).
-/

namespace LinkedDocs

/-- What a service keeps between requests. -/
structure Service (σ τ : Type) where
  store : σ
  selectors : SelectorCache
  sink : τ

namespace Service

variable {σ τ α : Type}

/-- Leads a dialogue with the store. -/
def converse (server : Server σ) (dialogue : Dialogue α) (s : Service σ τ) : α × Service σ τ :=
  let (result, store) := dialogue.run server s.store
  (result, { s with store })

/-- Hands notifications to the sink. -/
def announce (sink : Sink τ) (notifications : List Notification) (s : Service σ τ) :
    Delivery × Service σ τ :=
  let (delivery, state) := sink.announce notifications s.sink
  (delivery, { s with sink := state })

/-- Leads a write, then hands what it announces to the sink. -/
def write (server : Server σ) (sink : Sink τ) (w : Write α) (s : Service σ τ) :
    Except ManagerError α × Service σ τ :=
  let ((result, notifications), s) := s.converse server w.start
  (result, (s.announce sink notifications).2)

/-- Leads a read through the remembered selectors. -/
def read (server : Server σ) (r : Manager.Read α) (s : Service σ τ) :
    Except ManagerError α × Service σ τ :=
  let (dialogue, selectors) := r s.selectors
  { s with selectors }.converse server dialogue

@[simp] theorem store_announce (sink : Sink τ) (notifications : List Notification)
    (s : Service σ τ) : (s.announce sink notifications).2.store = s.store := rfl

@[simp] theorem selectors_announce (sink : Sink τ) (notifications : List Notification)
    (s : Service σ τ) : (s.announce sink notifications).2.selectors = s.selectors := rfl

/-- The outcome of a write and the store after it do not depend on the sink. -/
theorem write_outcome (server : Server σ) (sink : Sink τ) (w : Write α) (s : Service σ τ) :
    ((s.write server sink w).1, (s.write server sink w).2.store)
      = ((w.start.run server s.store).1.1, (w.start.run server s.store).2) := rfl

end Service

end LinkedDocs
