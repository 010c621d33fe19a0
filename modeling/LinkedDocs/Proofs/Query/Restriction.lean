import LinkedDocs.Proofs.Query.Noninterference

/-!
# A permission restricts the store

To read under a permission is to read, without any permission, a store from which everything that
the caller may not see has been deleted (`Memory.visibleTo`), except that the permission may refuse:

> `ok_visibleTo`: what a query gives under a permission, it gives on the smaller store to a caller
> who may see everything.

Two passes are compared step by step. `Pass.Carries` says that whenever one step succeeds, with the
answers of the whole store, another one succeeds with the answers of the smaller store, with the
same result and the same memo. A single document is checked where the other pass just asks for it,
and a search is narrowed where the other pass searches less; both come out the same.
-/

namespace LinkedDocs

namespace Memory

/-- Deletes every document that does not pass, and the collections that hold nothing then. -/
def keepOnly (keep : String → Fields → Bool) (m : Memory) : Memory :=
  { m with
    collections :=
      ⟨(m.collections.entries.map fun (collection, documents) =>
          (collection, documents.filter (keep collection))).filter fun pair => !pair.2.isEmpty,
        by
          refine List.Nodup.sublist (List.Sublist.map _ List.filter_sublist) ?_
          rw [List.map_map]
          exact m.collections.nodup⟩ }

/-- The store that is left when everything that the caller may not see is deleted. -/
def visibleTo (m : Memory) (p : Permission) : Memory := m.keepOnly (isSeen p)

theorem documents_keepOnly (keep : String → Fields → Bool) (m : Memory) (collection : String) :
    (m.keepOnly keep).documents collection = (m.documents collection).filter (keep collection) := by
  have key : ∀ entries : List (String × List Fields),
      (entries.map Prod.fst).Nodup →
      (List.lookup collection ((entries.map fun (name, documents) =>
          (name, documents.filter (keep name))).filter fun pair => !pair.2.isEmpty)).getD []
        = ((entries.lookup collection).getD []).filter (keep collection) := by
    intro entries hnd
    have hmapped : ((entries.map fun (name, documents) =>
        (name, documents.filter (keep name))).map Prod.fst).Nodup := by
      rw [List.map_map]
      exact hnd
    rw [Dict.lookup_filter (fun _ documents => !documents.isEmpty) hmapped]
    clear hmapped hnd
    induction entries with
    | nil => rfl
    | cons pair rest ih =>
      obtain ⟨name, documents⟩ := pair
      by_cases hname : name = collection
      · -- a collection that is emptied goes, which is as good as having no documents
        subst hname
        cases hempty : (documents.filter (keep name)) with
        | nil => simp [hempty, Option.filter]
        | cons d kept => simp [hempty, Option.filter]
      · simp only [List.map_cons, Dict.lookup_cons, if_neg hname]
        exact ih
  exact key _ m.collections.nodup

theorem Identified.visibleTo {m : Memory} (h : m.Identified) (p : Permission) :
    (m.visibleTo p).Identified := by
  intro collection d hd
  rw [Memory.visibleTo, documents_keepOnly] at hd
  exact h collection d (List.mem_filter.mp hd).1

/-- All that the smaller store holds may be seen, and it holds all that may be seen. -/
theorem entities_visibleTo {m : Memory} (h : m.Identified) (p : Permission) (collection : String) :
    (m.visibleTo p).entities collection = m.seenEntities p collection := by
  rw [entities, visibleTo, documents_keepOnly]
  exact filterMap_isSeen (h collection) p collection

/-- What the caller may get by id is what the smaller store has. -/
theorem reply_get_visibleTo {m : Memory} (h : m.Identified) {p : Permission}
    {collection id : String} (hcheck : p.check collection id = true) (projection : Projection) :
    (m.visibleTo p).reply (.get collection id projection)
      = m.reply (.get collection id projection) := by
  cases off : m.offline with
  | true => rw [reply_of_offline off, reply_of_offline (m := m.visibleTo p) off]
  | false =>
    rw [reply_get h off, reply_get (h.visibleTo p) off, entities_visibleTo h,
      find?_seenEntities m hcheck]

/-- What a narrowed search gives is what the search gives in the smaller store. -/
theorem reply_find_visibleTo {m : Memory} (h : m.Identified) {p : Permission}
    {collection : String} {filter narrowed : Filter}
    (hnarrow : p.narrow collection filter = .ok narrowed) (projection : Projection) :
    (m.visibleTo p).reply (.find collection filter projection)
      = m.reply (.find collection narrowed projection) := by
  cases off : m.offline with
  | true => rw [reply_of_offline off, reply_of_offline (m := m.visibleTo p) off]
  | false =>
    have hfilter : (m.seenEntities p collection).filter filter.holds
        = (m.entities collection).filter narrowed.holds := by
      rw [seenEntities, List.filter_filter]
      congr 1
      funext e
      rw [Permission.holds_narrow hnarrow]
    rw [reply_find h off, reply_find (h.visibleTo p) off, entities_visibleTo h, hfilter]

end Memory

namespace Pass

variable {α β : Type}

/-- Whenever the first step succeeds with the first answers, the second one succeeds with the second
answers, with the same result and the same memo. -/
def Carries (reply reply' : (call : Call) → call.Answer) (x y : Pass α) : Prop :=
  ∀ memo a left, eval reply x memo = (.ok a, left) → eval reply' y memo = (.ok a, left)

variable {reply reply' : (call : Call) → call.Answer}

/-- A step that asks for nothing is carried over as it is. -/
theorem carries_pure (a : α) : Carries reply reply' (pure a) (pure a) := fun _ _ _ h => h

theorem carries_get : Carries reply reply' get get := fun _ _ _ h => h

theorem carries_modify (f : Memo → Memo) : Carries reply reply' (modify f) (modify f) :=
  fun _ _ _ h => h

theorem carries_throw (error : QueryError) (y : Pass α) : Carries reply reply' (throw error) y := by
  intro memo a left h
  simp at h

theorem carries_get_document {collection id : String} {projection : Projection}
    (h : reply' (.get collection id projection) = reply (.get collection id projection)) :
    Carries reply reply' (ask (.get collection id projection))
      (ask (.get collection id projection)) := by
  intro memo a left hok
  rw [eval_ask] at hok ⊢
  rw [h]
  exact hok

/-- Searches by different filters are carried over if they give the same. -/
theorem carries_search {collection : String} {filter filter' : Filter} {projection : Projection}
    (h : reply' (.find collection filter' projection)
      = reply (.find collection filter projection)) :
    Carries (α := List Entity) reply reply' (ask (.find collection filter projection))
      (ask (.find collection filter' projection)) := by
  intro memo a left hok
  rw [eval_ask] at hok ⊢
  rw [h]
  exact hok

theorem Carries.bind {x y : Pass α} {f g : α → Pass β} (hx : Carries reply reply' x y)
    (hf : ∀ a, Carries reply reply' (f a) (g a)) : Carries reply reply' (x >>= f) (y >>= g) := by
  intro memo b left h
  rw [eval_bind] at h ⊢
  cases hr : eval reply x memo with
  | mk result middle =>
    rw [hr] at h
    cases result with
    | error error => simp at h
    | ok a =>
      rw [hx memo a middle hr]
      exact hf a middle b left h

theorem carries_forEach {step step' : α → Pass Unit}
    (h : ∀ a, Carries reply reply' (step a) (step' a)) :
    ∀ items : List α, Carries reply reply' (forEach step items) (forEach step' items)
  | [] => carries_pure ()
  | item :: items => (h item).bind fun _ => carries_forEach h items

/-! ## From the whole store to the smaller one -/

variable {m : Memory} (p : Permission)

section

variable (hm : m.Identified)
include hm

theorem carries_fetchOne {plan : Plan} {id : String}
    (hcheck : p.check plan.info.collection id = true) :
    Carries m.reply (m.visibleTo p).reply (fetchOne plan id) (fetchOne plan id) := by
  refine carries_get.bind fun memo => ?_
  cases memo.entity? plan.info.id id with
  | some entity => exact (carries_modify _).bind fun _ => carries_pure entity
  | none =>
    refine (carries_modify _).bind fun _ => Carries.bind ?_ fun entity =>
      (carries_modify _).bind fun _ => carries_pure entity
    exact carries_get_document (Memory.reply_get_visibleTo hm hcheck _)

/-- A document that passes the check is a document of the smaller store. -/
theorem carries_resolveOne (plan : Plan) {expand expand' : Entity → Pass Unit}
    (h : ∀ e, Carries m.reply (m.visibleTo p).reply (expand e) (expand' e)) (id : String) :
    Carries m.reply (m.visibleTo p).reply (resolveOne p plan expand id)
      (resolveOne .unrestricted plan expand' id) := by
  rw [resolveOne_eq, resolveOne_eq, if_pos (show Permission.unrestricted.check _ _ = true from rfl)]
  split
  · next hcheck =>
    refine (carries_fetchOne p hm hcheck).bind fun entity => ?_
    cases entity with
    | none => exact carries_pure none
    | some found => exact (h found).bind fun _ => carries_pure (some found)
  · exact carries_throw _ _

/-- A narrowed search of the whole store is a search of the smaller one. -/
theorem carries_fetchPage (plan : Plan) {expand expand' : Entity → Pass Unit}
    (h : ∀ e, Carries m.reply (m.visibleTo p).reply (expand e) (expand' e)) (link : Filter) :
    Carries m.reply (m.visibleTo p).reply (fetchPage p plan expand link)
      (fetchPage .unrestricted plan expand' link) := by
  unfold fetchPage
  cases hnarrow : p.narrow plan.info.collection (link ++ plan.info.scope.filter) with
  | error error => exact carries_throw _ _
  | ok filter =>
    refine (carries_modify _).bind fun _ => Carries.bind ?_ fun found =>
      (carries_forEach h _).bind fun _ => carries_pure _
    exact carries_search (Memory.reply_find_visibleTo hm hnarrow _)

theorem carries_resolveMany (plan : Plan) {expand expand' : Entity → Pass Unit}
    (h : ∀ e, Carries m.reply (m.visibleTo p).reply (expand e) (expand' e))
    (parent : Option String) (link : Filter) :
    Carries m.reply (m.visibleTo p).reply (resolveMany p plan expand parent link)
      (resolveMany .unrestricted plan expand' parent link) := by
  rw [resolveMany_eq, resolveMany_eq]
  refine carries_get.bind fun memo => ?_
  cases memo.page? plan.info.id parent with
  | some page => exact (carries_modify _).bind fun _ => carries_pure page
  | none =>
    exact (carries_fetchPage p hm plan h link).bind fun page =>
      (carries_modify _).bind fun _ => carries_pure page

end

mutual

theorem carries_expand (hm : m.Identified) : ∀ (plan : Plan) (e : Entity),
    Carries m.reply (m.visibleTo p).reply (expand p plan e) (expand .unrestricted plan e)
  | .node info ones manys, e => by
    rw [expand, expand]
    split
    · exact carries_pure ()
    · refine carries_get.bind fun memo => ?_
      split
      · exact carries_pure ()
      · exact (carries_followOnes hm ones e).bind fun _ =>
          (carries_followManys hm info.collection manys e).bind fun _ => carries_modify _

theorem carries_followOnes (hm : m.Identified) : ∀ (ones : List (String × Plan)) (e : Entity),
    Carries m.reply (m.visibleTo p).reply (followOnes p ones e) (followOnes .unrestricted ones e)
  | [], _ => carries_pure ()
  | (target, child) :: rest, e => by
    have hrest := carries_followOnes hm rest e
    rw [followOnes, followOnes]
    split
    · rw [discard_eq, discard_eq]
      exact ((carries_resolveOne p hm child (carries_expand hm child) _).bind fun _ =>
        carries_pure ()).bind fun _ => hrest
    · exact hrest

theorem carries_followManys (hm : m.Identified) :
    ∀ (collection : String) (manys : List (String × Plan)) (e : Entity),
    Carries m.reply (m.visibleTo p).reply (followManys p collection manys e)
      (followManys .unrestricted collection manys e)
  | _, [], _ => carries_pure ()
  | collection, (target, child) :: rest, e => by
    have hrest := carries_followManys hm collection rest e
    rw [followManys, followManys]
    split
    · rw [discard_eq, discard_eq]
      exact ((carries_resolveMany p hm child (carries_expand hm child) _ _).bind fun _ =>
        carries_pure ()).bind fun _ => hrest
    · exact hrest

end

end Pass

namespace Query

/-- What a pass carries over, the answer that is written from it carries over too. -/
theorem eval_withPlan_of_carries {α β : Type} {reply reply' : (call : Call) → call.Answer}
    {plan : Except QueryError Plan} {step step' : Plan → Pass α}
    (hcarries : ∀ plan, Pass.Carries reply reply' (step plan) (step' plan))
    (write : Plan → Memo → α → β) {v : β}
    (h : (withPlan plan fun plan => do
      let (result, memo) ← (step plan).start .empty
      return result.map (write plan memo)).eval reply = .ok v) :
    (withPlan plan fun plan => do
      let (result, memo) ← (step' plan).start .empty
      return result.map (write plan memo)).eval reply' = .ok v := by
  cases plan with
  | error error => exact h
  | ok plan =>
    rw [eval_withPlan write] at h ⊢
    cases hr : Pass.eval reply (step plan) .empty with
    | mk result memo =>
      rw [hr] at h
      cases result with
      | error error => cases h
      | ok a =>
        rw [hcarries plan _ a memo hr]
        exact h

variable {m : Memory}

/-- **A permission restricts the store.** What a query gives under a permission, it gives without
one on the store from which all that the caller may not see has been deleted. -/
theorem ok_visibleTo (h : m.Identified) (p : Permission) (collection : String)
    (request : Request) :
    (∀ id found, ((one p collection id request).run Memory.answer m).1 = .ok found →
        ((one .unrestricted collection id request).run Memory.answer (m.visibleTo p)).1
          = .ok found) ∧
      ∀ page, ((many p collection request).run Memory.answer m).1 = .ok page →
        ((many .unrestricted collection request).run Memory.answer (m.visibleTo p)).1
          = .ok page := by
  constructor
  · intro id found hok
    rw [(m.run_eq_eval (reads_one p collection id request)).1] at hok
    rw [((m.visibleTo p).run_eq_eval (reads_one .unrestricted collection id request)).1]
    exact eval_withPlan_of_carries
      (fun plan => Pass.carries_resolveOne p h plan (Pass.carries_expand p h plan) id)
      (fun plan memo => Option.map (Answer.ofEntity memo plan request.select)) hok
  · intro page hok
    rw [(m.run_eq_eval (reads_many p collection request)).1] at hok
    rw [((m.visibleTo p).run_eq_eval (reads_many .unrestricted collection request)).1]
    exact eval_withPlan_of_carries
      (fun plan => Pass.carries_resolveMany p h plan (Pass.carries_expand p h plan) none [])
      (fun plan memo => List.map (Answer.ofEntity memo plan request.select)) hok

/-- The caller who may see the second of two machines gets what there is in a store without the
first. -/
theorem ok_visibleTo_second_machine :
    ((many .unrestricted "vm" .full).run Memory.answer
      (Memory.twoMachines.visibleTo (.granted false [("vm", .ids ["2"])]))).1
        = .ok [.object [("id", .string "2")]] :=
  (ok_visibleTo (by decide +kernel) (.granted false [("vm", .ids ["2"])]) "vm" .full).2
    [.object [("id", .string "2")]] (by decide +kernel)

end Query

end LinkedDocs
