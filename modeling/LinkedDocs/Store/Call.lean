import LinkedDocs.Filter
import LinkedDocs.Projection

/-!
# Calls to a document store

Everything that is done to a store is one of seven calls. What uses a store is written as a
`Dialogue`: a tree that asks a call, continues with the reply, and ends with a result. A `Server`
answers calls and keeps a state, and `Dialogue.run` brings the two together. So the same dialogue
can be run against a store in memory, a store that fails at a chosen call, one that answers more
than it was asked for, or one that only writes down what it was asked.
-/

namespace LinkedDocs

/-- A change to one stored document. -/
inductive Update where
  /-- The whole document; it has to keep its id. -/
  | replace (entity : Entity)
  /-- Some fields are set and others taken out, the rest stays. -/
  | patch (set : Fields) (unset : List String)

/-- A call to a document store. -/
inductive Call where
  /-- Loads one document. -/
  | get (collection id : String) (projection : Projection)
  /-- Loads all documents that pass the filter, in the order of the store. -/
  | find (collection : String) (filter : Filter) (projection : Projection)
  /-- Adds documents; none is added if an id is taken. -/
  | insert (collection : String) (entities : List Entity)
  /-- Changes one document; the reply says whether it exists. -/
  | update (collection id : String) (change : Update)
  /-- Deletes one document; the reply says whether it existed. -/
  | remove (collection id : String)
  /-- Deletes a collection with all it holds; the reply says whether it existed. -/
  | drop (collection : String)
  /-- The names of the collections, sorted. -/
  | collections

/-- What a successful call is answered with. -/
abbrev Call.Reply : Call → Type
  | .get .. => Option Entity
  | .find .. => List Entity
  | .insert .. => Unit
  | .update .. => Bool
  | .remove .. => Bool
  | .drop .. => Bool
  | .collections => List String

/-- The answer to a call: a reply or a failure. -/
abbrev Call.Answer (call : Call) : Type := Except StoreError call.Reply

instance decidableEqExcept {ε α : Type} [DecidableEq ε] [DecidableEq α] :
    DecidableEq (Except ε α)
  | .ok a, .ok b => if h : a = b then .isTrue (congrArg _ h) else .isFalse (h <| Except.ok.inj ·)
  | .error a, .error b =>
    if h : a = b then .isTrue (congrArg _ h) else .isFalse (h <| Except.error.inj ·)
  | .ok _, .error _ => .isFalse nofun
  | .error _, .ok _ => .isFalse nofun

/-- A dialogue with a store that ends with a result. -/
inductive Dialogue (α : Type) where
  | done (result : α)
  | ask (call : Call) (next : call.Answer → Dialogue α)

/-- Something that answers calls and keeps a state. -/
abbrev Server (σ : Type) := σ → (call : Call) → call.Answer × σ

namespace Dialogue

variable {α β γ : Type}

/-- Goes on with another dialogue that depends on the result. -/
def bind : Dialogue α → (α → Dialogue β) → Dialogue β
  | .done result, f => f result
  | .ask call next, f => .ask call fun answer => (next answer).bind f

instance : Monad Dialogue where
  pure := .done
  bind := bind

/-- Asks a single call. -/
def call (c : Call) : Dialogue c.Answer := .ask c .done

/-- Leads a dialogue with a server. -/
def run {σ : Type} (server : Server σ) : Dialogue α → σ → α × σ
  | .done result, state => (result, state)
  | .ask call next, state =>
    let (answer, state) := server state call
    run server (next answer) state

@[simp] theorem pure_eq (a : α) : (pure a : Dialogue α) = .done a := rfl

@[simp] theorem bind_eq (d : Dialogue α) (f : α → Dialogue β) : d >>= f = d.bind f := rfl

@[simp] theorem bind_done (a : α) (f : α → Dialogue β) : (done a).bind f = f a := rfl

@[simp] theorem bind_ask (c : Call) (next : c.Answer → Dialogue α) (f : α → Dialogue β) :
    (ask c next).bind f = ask c fun answer => (next answer).bind f := rfl

@[simp] theorem bind_done_right (d : Dialogue α) : d.bind done = d := by
  induction d with
  | done => rfl
  | ask c next ih => simp [ih]

theorem bind_assoc (d : Dialogue α) (f : α → Dialogue β) (g : β → Dialogue γ) :
    (d.bind f).bind g = d.bind fun a => (f a).bind g := by
  induction d with
  | done => rfl
  | ask c next ih => simp [ih]

instance : LawfulMonad Dialogue :=
  LawfulMonad.mk' Dialogue (fun d => bind_done_right d) (fun _ _ => rfl) bind_assoc

@[simp] theorem run_done {σ : Type} (server : Server σ) (a : α) (state : σ) :
    (done a).run server state = (a, state) := rfl

/-- Leading a dialogue in two parts. -/
theorem run_bind {σ : Type} (server : Server σ) (d : Dialogue α) (f : α → Dialogue β) (state : σ) :
    (d.bind f).run server state = (f (d.run server state).1).run server (d.run server state).2 := by
  induction d generalizing state with
  | done => rfl
  | ask c next ih => simp [run, ih]

end Dialogue

end LinkedDocs
