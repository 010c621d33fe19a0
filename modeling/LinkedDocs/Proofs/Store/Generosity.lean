import LinkedDocs.Proofs.Store.Alike
import LinkedDocs.Proofs.Store.Steady

/-!
# Stores that show more than they are asked for

A read asks for some fields of the documents that it is about. A store shows enough if it shows
these; which others it shows it may decide anew for each document and each call
(`Entity.Part`, `Memory.Enough`). What it is asked for exactly is enough:

> `enough_reply`: a store in memory shows enough.

So an answer to a read is no longer fixed by the call. `Dialogue.Ensures` says of a dialogue that it
ends well whatever it is answered within bounds, and `Server.ShowsEnough` of a server that it keeps
within these bounds, whatever reads it has been through.
-/

namespace LinkedDocs

namespace Entity

/-- The second entity shows of the first one at least the fields that are asked for, in the same
order. -/
def Part (asked : Projection) (whole part : Entity) : Prop :=
  ∃ shown : Projection, (∀ name, asked.includes name = true → shown.includes name = true) ∧
    part = whole.restrict shown

variable {asked : Projection} {whole part : Entity}

/-- What shows more shows enough. -/
theorem Part.mono {more : Projection} (h : Part more whole part)
    (hmore : ∀ name, asked.includes name = true → more.includes name = true) :
    Part asked whole part := by
  obtain ⟨shown, hshown, rfl⟩ := h
  exact ⟨shown, fun name hname => hshown name (hmore name hname), rfl⟩

theorem Part.id (h : Part asked whole part) : part.id = whole.id := by
  obtain ⟨shown, -, rfl⟩ := h
  rfl

/-- What is asked for is shown as it is. -/
theorem Part.get? (h : Part asked whole part) {name : String} (hname : asked.includes name = true) :
    part.get? name = whole.get? name := by
  obtain ⟨shown, hshown, rfl⟩ := h
  exact get?_restrict_of_includes (hshown name hname) whole

theorem Part.link (h : Part asked whole part) {target : String}
    (htarget : asked.includes target = true) : part.link target = whole.link target := by
  rw [Entity.link, Entity.link, h.get? htarget]

/-- Where every field is asked for, the whole is shown. -/
theorem Part.eq_of_all (h : Part .all whole part) : part = whole := by
  obtain ⟨shown, hshown, rfl⟩ := h
  refine Entity.ext (Dict.ext ?_)
  show whole.fields.entries.filter (fun pair => shown.includes pair.1) = whole.fields.entries
  exact List.filter_eq_self.mpr fun pair _ => hshown pair.1 rfl

end Entity

/-! ## Answers that show enough -/

namespace Memory

/-- The answers with whole documents, whatever is asked for. -/
def whole (m : Memory) : (call : Call) → call.Answer
  | .get collection id _ => m.reply (.get collection id .all)
  | .find collection filter _ => m.reply (.find collection filter .all)
  | .insert collection entities => m.reply (.insert collection entities)
  | .update collection id change => m.reply (.update collection id change)
  | .remove collection id => m.reply (.remove collection id)
  | .drop collection => m.reply (.drop collection)
  | .collections => m.reply .collections

/-- The answer shows of each document that the call is about at least what is asked for, or is the
same failure. Nothing is said of calls that show no document. -/
def Enough (m : Memory) : (call : Call) → call.Answer → Prop
  | .get collection id asked, answer =>
    EndsAlike (Option.Rel (Entity.Part asked)) (m.whole (.get collection id asked)) answer
  | .find collection filter asked, answer =>
    EndsAlike (List.Forall₂ (Entity.Part asked)) (m.whole (.find collection filter asked)) answer
  | .insert .., _ | .update .., _ | .remove .., _ | .drop .., _ | .collections, _ => True

variable (m : Memory)

/-- Writing the id and dropping fields can be done in either order. -/
theorem apply_set_id (asked : Projection) (fields : Fields) (value : Value) :
    (asked.apply fields).set idField value = asked.apply (fields.set idField value) := by
  have hput : ∀ entries : List (String × Value),
      Dict.put idField value (entries.filter fun pair => asked.includes pair.1)
        = (Dict.put idField value entries).filter fun pair => asked.includes pair.1 := by
    intro entries
    induction entries with
    | nil => simp [Dict.put]
    | cons pair rest ih =>
      obtain ⟨key, old⟩ := pair
      by_cases hkey : key = idField
      · subst hkey
        simp [Dict.put]
      · by_cases hkeep : asked.includes key = true
        · simp [Dict.put, hkey, hkeep, ih]
        · simp [Dict.put, hkey, hkeep, ih]
  exact Dict.ext (hput fields.entries)

/-- Fewer fields of a document make a part of the entity that all make, or the same failure. -/
theorem load_part (asked : Projection) (document : Fields) :
    EndsAlike (Entity.Part asked) (load document .all) (load document asked) := by
  have hcomm : Entity.visible (asked.apply document) = asked.apply (Entity.visible document) :=
    Dict.filter_comm document _ _
  rw [load, load, Entity.ofStored, Entity.ofStored, Projection.apply_all, hcomm]
  refine EndsAlike.mapError ?_ _
  generalize Entity.visible document = fields
  unfold Entity.ofFields
  rw [Projection.get?_apply, Projection.includes_id, if_pos rfl]
  cases fields.get? idField with
  | none => exact .error _
  | some value =>
    dsimp only
    cases value.scalarText? with
    | none => exact .error _
    | some id =>
      refine .ok ⟨asked, fun _ h => h, Entity.ext ?_⟩
      exact apply_set_id asked fields (.string id)

theorem select_part (filter : Filter) (asked : Projection) (documents : List Fields) :
    EndsAlike (List.Forall₂ (Entity.Part asked)) (select filter .all documents)
      (select filter asked documents) := by
  induction documents with
  | nil => exact .ok .nil
  | cons document rest ih =>
    rw [select, select]
    refine (EndsAlike.eq_iff.mpr rfl).bind fun e _ he => ?_
    cases he
    split
    · exact (load_part asked document).bind fun found found' hfound =>
        ih.bind fun others others' hothers => .ok (.cons hfound hothers)
    · exact ih

/-- What is asked for exactly is enough. -/
theorem enough_reply (call : Call) : m.Enough call (m.reply call) := by
  cases call with
  | get collection id asked =>
    show EndsAlike _ (m.get collection id .all).1 (m.get collection id asked).1
    unfold Memory.get
    split
    · exact .error _
    · dsimp only
      cases (m.documents collection).find? (hasId id) with
      | none => exact .ok .none
      | some document => exact (load_part asked document).map fun _ _ => .some
  | find collection filter asked =>
    show EndsAlike _ (m.find collection filter .all).1 (m.find collection filter asked).1
    unfold Memory.find
    split
    · exact .error _
    · exact select_part filter asked _
  | insert | update | remove | drop | collections => trivial

end Memory

/-! ## Dialogues with answers within bounds -/

namespace Dialogue

variable {α β σ : Type} {allowed : (call : Call) → call.Answer → Prop}

/-- The dialogue ends with a good result, whatever it is answered, if only the answers are allowed.
-/
def Ensures (allowed : (call : Call) → call.Answer → Prop) (good : α → Prop) : Dialogue α → Prop
  | .done result => good result
  | .ask call next => ∀ answer, allowed call answer → (next answer).Ensures allowed good

theorem Ensures.bind {good : α → Prop} {good' : β → Prop} {d : Dialogue α} {f : α → Dialogue β}
    (hd : d.Ensures allowed good) (hf : ∀ a, good a → (f a).Ensures allowed good') :
    (d.bind f).Ensures allowed good' := by
  induction d with
  | done a => exact hf a hd
  | ask call next ih => exact fun answer hanswer => ih answer (hd answer hanswer)

end Dialogue

/-- Whatever reads it has been through, the server shows enough of the documents in the store. -/
def Server.ShowsEnough {σ : Type} (server : Server σ) (m : Memory) (s : σ) : Prop :=
  ∀ reads : List Call, (∀ call ∈ reads, call.isRead) → ∀ call : Call, call.isRead →
    m.Enough call (server (server.after s reads) call).1

namespace Server.ShowsEnough

variable {α σ : Type} {server : Server σ} {m : Memory} {s : σ}

/-- It still does after a read. -/
theorem after_read (h : server.ShowsEnough m s) {call : Call} (read : call.isRead) :
    server.ShowsEnough m (server s call).2 := by
  intro reads hreads
  exact h (call :: reads) (List.forall_mem_cons.mpr ⟨read, hreads⟩)

/-- With such a server a dialogue of reads ends as it must with answers that show enough. -/
theorem run {good : α → Prop} {d : Dialogue α} (reads : d.OnlyAsks Call.isRead)
    (hd : d.Ensures m.Enough good) (h : server.ShowsEnough m s) : good (d.run server s).1 := by
  induction d generalizing s with
  | done a => exact hd
  | ask call next ih =>
    exact ih _ (reads.2 _) (hd _ (h [] nofun call reads.1)) (h.after_read reads.1)

end Server.ShowsEnough

/-! ## Servers that show enough -/

/-- Asks for the fields of two projections. -/
def Projection.plus : Projection → Projection → Projection
  | .fields names, .fields more => .fields (names ++ more)
  | _, _ => .all

theorem Projection.includes_plus {asked : Projection} {name : String}
    (h : asked.includes name = true) (more : Projection) :
    (asked.plus more).includes name = true := by
  cases asked with
  | all => rfl
  | fields names =>
    cases more with
    | all => rfl
    | fields more =>
      rw [includes, Bool.or_eq_true, List.contains_iff_mem] at h
      rw [plus, includes, Bool.or_eq_true, List.contains_iff_mem]
      exact h.imp_right (List.mem_append_left _)

namespace Memory

/-- A store in memory shows enough of what is in it. -/
theorem showsEnough_answer (m : Memory) : answer.ShowsEnough m m := by
  intro reads hreads call read
  have hsame : ∀ (reads : List Call) {m' : Memory}, (∀ call ∈ reads, call.isRead) →
      m.SameContent m' → m.SameContent (answer.after m' reads) := by
    intro reads
    induction reads with
    | nil => exact fun _ h => h
    | cons first rest ih =>
      intro m' hreads h
      obtain ⟨hfirst, hrest⟩ := List.forall_mem_cons.mp hreads
      exact ih hrest (answer_read h hfirst).2
  rw [(answer_read (hsame reads hreads (.refl m)) read).1]
  exact m.enough_reply call

/-- The server that shows of what is in a store what it is asked for and, at each call, the fields
that are chosen for the call besides. The state counts the calls. -/
def generous (m : Memory) (choose : Nat → Projection) : Server Nat
  | n, .get collection id asked => (m.reply (.get collection id (asked.plus (choose n))), n + 1)
  | n, .find collection filter asked =>
    (m.reply (.find collection filter (asked.plus (choose n))), n + 1)
  | n, call => (m.reply call, n + 1)

theorem showsEnough_generous (m : Memory) (choose : Nat → Projection) (n : Nat) :
    (m.generous choose).ShowsEnough m n := by
  intro reads _ call _
  generalize (m.generous choose).after n reads = n'
  cases call with
  | get collection id asked =>
    refine (m.enough_reply (.get collection id (asked.plus (choose n')))).mono
      fun found found' h => ?_
    cases h with
    | none => exact .none
    | some hpart => exact .some (hpart.mono fun _ hname => Projection.includes_plus hname _)
  | find collection filter asked =>
    refine (m.enough_reply (.find collection filter (asked.plus (choose n')))).mono
      fun found found' h => ?_
    exact h.imp fun _ _ hpart => hpart.mono fun _ hname => Projection.includes_plus hname _
  | insert | update | remove | drop | collections => trivial

end Memory

end LinkedDocs
