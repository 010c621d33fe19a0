import LinkedDocs.Notification

/-!
# Broadcasting notifications

A `Broadcast` hands notifications on to readers. It keeps the latest ones in a ring whose size is a
power of two; each reader has its own place in the sequence of all notifications and sees only those
that were published after it subscribed. A reader that has fallen behind the ring is told once how
many it has missed and goes on with the oldest notification kept. Without a reader nothing is kept.
-/

namespace LinkedDocs

/-- The least power of two that is at least `n`, and at least one. -/
def nextPowerOfTwo (n : Nat) : Nat := if n ≤ 1 then 1 else 1 <<< ((n - 1).log2 + 1)

/-- Notifications on their way to readers. -/
structure Broadcast where
  /-- How many notifications are kept. -/
  ring : Nat
  /-- How many have been published. -/
  published : Nat
  /-- The latest ones, the oldest first. -/
  kept : List Notification
  /-- The place of each reader, in the order of subscription; none for those that have left. -/
  readers : List (Option Nat)

/-- What a reader gets. -/
inductive Received where
  | message (n : Notification)
  /-- So many notifications were missed. -/
  | lagged (missed : Nat)
  /-- There is nothing new. -/
  | empty

namespace Broadcast

/-- A broadcast that keeps at least `capacity` notifications. -/
def ofCapacity (capacity : Nat) : Broadcast := ⟨nextPowerOfTwo capacity, 0, [], []⟩

/-- Number of readers. -/
def readerCount (b : Broadcast) : Nat := (b.readers.filter Option.isSome).length

/-- Adds a reader, which sees what is published from now on. -/
def subscribe (b : Broadcast) : Broadcast := { b with readers := b.readers ++ [some b.published] }

/-- Takes a reader out. -/
def leave (b : Broadcast) (reader : Nat) : Broadcast :=
  { b with readers := b.readers.set reader none }

/-- Takes a notification; it never fails. -/
def publish : Sink Broadcast := fun b n =>
  if b.readerCount = 0 then (true, b)
  else
    let kept := b.kept ++ [n]
    (true, { b with published := b.published + 1, kept := kept.drop (kept.length - b.ring) })

/-- The place in the sequence of the oldest notification that is kept. -/
def oldest (b : Broadcast) : Nat := b.published - b.kept.length

/-- What a reader gets next. -/
def receive (b : Broadcast) (reader : Nat) : Received × Broadcast :=
  match b.readers[reader]?.join with
  | none => (.empty, b)
  | some place =>
    if place < b.oldest then
      (.lagged (b.oldest - place), { b with readers := b.readers.set reader (some b.oldest) })
    else
      match b.kept[place - b.oldest]? with
      | none => (.empty, b)
      | some n => (.message n, { b with readers := b.readers.set reader (some (place + 1)) })

end Broadcast

end LinkedDocs
