import LinkedDocs.Notification
import LinkedDocs.Proofs.Change.Partition
import Mathlib.Data.Bool.Count

/-!
# Announcing a change of a collection

A sink may answer what it likes to each notification, and differently each time. To see what it is
offered, a sink writes down each notification with its answer (`Sink.noting`); this changes nothing
else. Announcing offers the notifications of a list one by one to the end, and the delivery counts
the answers (`announce_noting`). With what comparing two versions of a collection gives, this is one
notification for each id that has changed (`announce_between`).
-/

namespace LinkedDocs

variable {σ : Type}

namespace Delivery

/-- The delivery of notifications that were answered. -/
def ofAnswers (answers : List Bool) : Delivery := ⟨answers.count true, answers.count false⟩

theorem add_ofAnswer_ofAnswers (accepted : Bool) (answers : List Bool) :
    add (ofAnswer accepted) (ofAnswers answers) = ofAnswers (accepted :: answers) := by
  cases accepted <;> simp [add, ofAnswer, ofAnswers, Nat.add_comm]

/-- Every answer counts once. -/
theorem total_ofAnswers (answers : List Bool) : (ofAnswers answers).total = answers.length :=
  List.count_true_add_count_false answers

end Delivery

namespace Sink

/-- Writes down what it is offered, and the answer. -/
def noting (sink : Sink σ) : Sink (List (Notification × Bool) × σ) := fun (notes, state) n =>
  let (accepted, state) := sink state n
  (accepted, notes ++ [(n, accepted)], state)

/-- Announcing goes through the list whatever the answers are, and counts them. -/
theorem announce_noting (sink : Sink σ) (news : List Notification)
    (before : List (Notification × Bool)) (state : σ) :
    ∃ notes : List (Notification × Bool),
      sink.noting.announce news (before, state)
          = ((sink.announce news state).1, before ++ notes, (sink.announce news state).2) ∧
        notes.map Prod.fst = news ∧
        (sink.announce news state).1 = .ofAnswers (notes.map Prod.snd) := by
  induction news generalizing before state with
  | nil =>
    refine ⟨[], ?_, rfl, rfl⟩
    rw [List.append_nil]
    rfl
  | cons n rest ih =>
    -- the rest is announced with one more note, from the state that the sink is in then
    obtain ⟨notes, hrun, hoffered, hcount⟩ :=
      ih (before ++ [(n, (sink state n).1)]) (sink state n).2
    refine ⟨(n, (sink state n).1) :: notes, ?_, ?_, ?_⟩
    · simp only [announce, noting] at hrun ⊢
      rw [hrun, List.append_assoc]
      rfl
    · rw [List.map_cons, hoffered]
    · rw [List.map_cons, ← Delivery.add_ofAnswer_ofAnswers, ← hcount]
      rfl

end Sink

namespace Notification

variable {collection : String} {change : CollectionChange}

/-- Updates that are changes are all announced. -/
theorem ofCollection_eq (some : ∀ updated ∈ change.updated, updated.2.isEmpty = false) :
    ofCollection collection change
      = change.created.map (fun id => ⟨collection, id, .created⟩)
        ++ change.updated.map (fun (id, change) => ⟨collection, id, .updated change.names⟩)
        ++ change.deleted.map (fun id => ⟨collection, id, .deleted⟩) := by
  unfold ofCollection
  congr 2
  rw [← List.filterMap_eq_map']
  refine List.filterMap_congr ?_
  intro updated hupdated
  simp [updated?, some updated hupdated]

theorem map_id_ofCollection (some : ∀ updated ∈ change.updated, updated.2.isEmpty = false) :
    (ofCollection collection change).map id = change.ids := by
  rw [ofCollection_eq some]
  simp [CollectionChange.ids, Function.comp_def]

end Notification

namespace CollectionChange

/-- **What has changed between two versions of a collection is announced exactly, to any sink.** If
ids are distinct, comparing puts each id in its one place, whatever the order of the old version.
However the sink answers, it is offered one notification for each id that has changed: those of
created, then of updated, then of deleted documents. The delivery counts as many notifications as
there are changes, and as sent those that the sink has accepted. -/
theorem announce_between (old new : List Entity) (collections : List String)
    (old_nodup : (old.map Entity.id).Nodup) (new_nodup : (new.map Entity.id).Nodup) :
    let change := between old new collections
    change.Partitions old new collections ∧
      (∀ old', old.Perm old' →
        (between old' new collections).created = change.created ∧
          (between old' new collections).updated = change.updated ∧
          (between old' new collections).deleted.Perm change.deleted) ∧
      ∀ (σ : Type) (sink : Sink σ) (state : σ) (collection : String),
        let news := Notification.ofCollection collection change
        let delivery := (sink.announce news state).1
        news.map Notification.id = change.ids ∧
          news = change.created.map (fun id => ⟨collection, id, .created⟩)
            ++ change.updated.map (fun (id, change) => ⟨collection, id, .updated change.names⟩)
            ++ change.deleted.map (fun id => ⟨collection, id, .deleted⟩) ∧
          ∃ notes : List (Notification × Bool),
            sink.noting.announce news ([], state)
                = (delivery, notes, (sink.announce news state).2) ∧
              notes.map Prod.fst = news ∧
              delivery.sent = notes.countP Prod.snd ∧
              delivery.sent + delivery.failed = change.size := by
  intro change
  have partitions : change.Partitions old new collections := partitions_between old_nodup new_nodup
  have hsome : ∀ updated ∈ change.updated, updated.2.isEmpty = false := by
    intro updated hupdated
    exact ((partitions.updated_iff _ _).mp hupdated).1
  refine ⟨partitions, fun old' perm => between_perm old_nodup perm, ?_⟩
  intro σ sink state collection news delivery
  have hids : news.map Notification.id = change.ids := Notification.map_id_ofCollection hsome
  obtain ⟨notes, hrun, hoffered, hcount⟩ := sink.announce_noting news [] state
  refine ⟨hids, Notification.ofCollection_eq hsome, notes, hrun, hoffered, ?_, ?_⟩
  · have hsent : delivery = .ofAnswers (notes.map Prod.snd) := hcount
    rw [hsent, Delivery.ofAnswers, List.count, List.countP_map]
    simp [Function.comp_def]
  · have htotal : delivery.total = change.size := by
      show (sink.announce news state).1.total = _
      rw [hcount, Delivery.total_ofAnswers, List.length_map, ← length_ids, ← hids, ← hoffered,
        List.length_map, List.length_map]
    exact htotal

/-- A machine with a size. -/
def machineOfSize (size : Int) (id : String) : Entity :=
  .withId (Dict.ofList [("size", .number (.integer size))]) id

/-- Accepts all but the second notification. -/
def secondRefused : Sink Nat := fun offered _ => (offered != 1, offered + 1)

/-- A machine is new, one has grown, one is gone, and one has moved only. The sink refuses the
second notification and still hears of the third. -/
theorem announce_between_second_refused :
    let old := [machineOfSize 1 "still", machineOfSize 1 "gone", machineOfSize 1 "grown"]
    let new := [machineOfSize 2 "grown", machineOfSize 1 "fresh", machineOfSize 1 "still"]
    let change := between old new []
    let news := Notification.ofCollection "vm" change
    change.Partitions old new [] ∧ change.ids = ["fresh", "grown", "gone"] ∧
      (secondRefused.announce news 0).1 = ⟨2, 1⟩ ∧ change.size = 3 ∧
      ∃ notes, (secondRefused.noting.announce news ([], 0)).2.1 = notes ∧
        notes.map Prod.fst = [⟨"vm", "fresh", .created⟩, ⟨"vm", "grown", .updated ["size"]⟩,
          ⟨"vm", "gone", .deleted⟩] ∧ notes.countP Prod.snd = 2 := by
  intro old new change news
  obtain ⟨partitions, -, hsinks⟩ :=
    announce_between old new [] (by decide) (by decide)
  obtain ⟨-, -, notes, hrun, hoffered, hsent, hsize⟩ := hsinks Nat secondRefused 0 "vm"
  have hdelivery : (secondRefused.announce news 0).1 = ⟨2, 1⟩ := by decide +kernel
  have hnews : news = [⟨"vm", "fresh", .created⟩, ⟨"vm", "grown", .updated ["size"]⟩,
      ⟨"vm", "gone", .deleted⟩] := by decide +kernel
  rw [hdelivery] at hsent hsize
  exact ⟨partitions, by decide +kernel, hdelivery, hsize.symm, notes, by rw [hrun],
    hoffered.trans hnews, hsent.symm⟩

end CollectionChange

end LinkedDocs
