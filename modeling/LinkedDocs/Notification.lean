import LinkedDocs.Change

/-!
# Notifications

A notification tells what has happened to one document. On the wire it is a topic, made of the
collection and the id, and a payload: a plus sign, a minus sign, or the changed names.

A `Sink` takes notifications and answers whether it has accepted them. Announcing goes through a
list of notifications to its end whatever the sink answers, and counts.
-/

namespace LinkedDocs

/-- What has happened to a document. -/
inductive Event where
  | created
  | deleted
  /-- These names have changed. -/
  | updated (names : List String)
  deriving DecidableEq

/-- The text of an event. -/
def Event.payload : Event → String
  | .created => "+"
  | .deleted => "-"
  | .updated names => ",".intercalate names

/-- What has happened to which document. -/
structure Notification where
  collection : String
  id : String
  event : Event
  deriving DecidableEq

namespace Notification

/-- The topic of a notification. -/
def topic (n : Notification) : String := n.collection ++ "/" ++ n.id

/-- The payload of a notification. -/
def payload (n : Notification) : String := n.event.payload

/-- The announcement of a change of a document; one that is no change is not announced. -/
def updated? (collection id : String) (change : Change) : Option Notification :=
  if change.isEmpty then none else some ⟨collection, id, .updated change.names⟩

/-- The announcements of a change of a collection: created, then updated, then deleted documents. -/
def ofCollection (collection : String) (change : CollectionChange) : List Notification :=
  (change.created.map fun id => ⟨collection, id, .created⟩)
    ++ (change.updated.filterMap fun (id, change) => updated? collection id change)
    ++ (change.deleted.map fun id => ⟨collection, id, .deleted⟩)

/-- The announcements that documents are gone. -/
def ofDeleted (collection : String) (ids : List String) : List Notification :=
  ids.map fun id => ⟨collection, id, .deleted⟩

/-- An update that is announced is announced as one, of the document that it is about. -/
theorem eq_of_mem_updated? {collection id : String} {change : Change} {n : Notification}
    (h : n ∈ (updated? collection id change).toList) :
    n = ⟨collection, id, .updated change.names⟩ := by
  unfold updated? at h
  split at h
  · cases h
  · exact List.mem_singleton.mp h

end Notification

/-- Takes a notification and answers whether it is accepted. -/
abbrev Sink (σ : Type) := σ → Notification → Bool × σ

/-- How many notifications were accepted and how many were not. -/
structure Delivery where
  sent : Nat
  failed : Nat
  deriving DecidableEq

namespace Delivery

/-- No notification. -/
def none : Delivery := ⟨0, 0⟩

/-- Two deliveries together. -/
def add (a b : Delivery) : Delivery := ⟨a.sent + b.sent, a.failed + b.failed⟩

/-- Number of notifications. -/
def total (d : Delivery) : Nat := d.sent + d.failed

/-- Whether all notifications were accepted. -/
def isClean (d : Delivery) : Bool := d.failed == 0

/-- The delivery of one notification. -/
def ofAnswer (accepted : Bool) : Delivery := if accepted then ⟨1, 0⟩ else ⟨0, 1⟩

end Delivery

namespace Sink

/-- Offers notifications one after another, whatever the answers. -/
def announce {σ : Type} (sink : Sink σ) : List Notification → σ → Delivery × σ
  | [], state => (.none, state)
  | n :: rest, state =>
    let (accepted, state) := sink state n
    let (delivery, state) := announce sink rest state
    (.add (.ofAnswer accepted) delivery, state)

/-- Accepts everything and keeps nothing. -/
def discard : Sink Unit := fun _ _ => (true, ())

end Sink

/-- A sink that writes down what it accepts, and that can be made to fail. -/
structure Recorder where
  failing : Bool
  recorded : List Notification

namespace Recorder

/-- A recorder that has seen nothing. -/
def empty : Recorder := ⟨false, []⟩

/-- Takes a notification. -/
def sink : Sink Recorder := fun r n =>
  if r.failing then (false, r) else (true, { r with recorded := r.recorded ++ [n] })

end Recorder

end LinkedDocs
