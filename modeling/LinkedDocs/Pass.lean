import LinkedDocs.Permission
import LinkedDocs.Plan
import LinkedDocs.Store.Call

/-!
# Resolution passes

A pass follows a plan through the store. It resolves one document or a page of a collection, and
then, for each document, the references of the plan: first the single ones, then the many ones, each
sorted by target. What has been resolved is remembered in a `Memo`, by node of the plan and id, and
pages by node and the id of the document that refers to them, so nothing is fetched twice; the
references of a document are followed once per node.

The first failure ends the pass. What was remembered and counted before it stays.

A pass here is led with a store that answers each call before the next step. The references of a
document, and the documents of a page, are meant to be resolved concurrently, and whoever comes to
something that is being fetched waits for it and counts neither a fetch nor a hit. With such a store
nobody does: what has been asked for is there when it is asked for again. So the memo has no place
for what is being fetched, and the wait is left out. `Proofs/Pass/Tasks` has the concurrent tasks
with the cells that they reserve, whatever turns they take and however late the store answers; the
pass is the run of them in which the first task always goes on (`Tasks.run_of_leads`).
-/

namespace LinkedDocs

/-- What a pass has resolved so far, and what it cost. -/
structure Memo where
  /-- Documents by node and id; `none` for those that do not exist. -/
  entities : List ((Nat × String) × Option Entity)
  /-- Pages by node and the id of the document that refers to them; the root page has none. -/
  pages : List ((Nat × Option String) × List Entity)
  /-- Nodes and ids whose references have been followed. -/
  expanded : List (Nat × String)
  gets : Nat
  finds : Nat
  hits : Nat

namespace Memo

/-- Nothing has been resolved. -/
def empty : Memo := ⟨[], [], [], 0, 0, 0⟩

instance : Inhabited Memo := ⟨empty⟩

/-- A document that has been resolved at a node, if it has been asked for there. -/
def entity? (m : Memo) (node : Nat) (id : String) : Option (Option Entity) :=
  m.entities.lookup (node, id)

/-- A page that has been resolved at a node for a referring document. -/
def page? (m : Memo) (node : Nat) (parent : Option String) : Option (List Entity) :=
  m.pages.lookup (node, parent)

/-- Whether the references of a document have been followed at a node. -/
def isExpanded (m : Memo) (node : Nat) (id : String) : Bool := m.expanded.contains (node, id)

end Memo

/-- A step of a pass: a dialogue with the store that may fail and keeps what it has resolved. -/
abbrev Pass := ExceptT QueryError (StateT Memo Dialogue)

namespace Pass

/-- Runs a step from a memo. -/
def start {α : Type} (step : Pass α) (memo : Memo) : Dialogue (Except QueryError α × Memo) :=
  (step.run).run memo

/-- Asks the store; a failure of the store ends the pass. -/
def ask (call : Call) : Pass call.Reply := do
  match ← liftM (Dialogue.call call) with
  | .ok reply => return reply
  | .error error => throw (.ofStore error)

/-- Takes a step for each item of a list. -/
def forEach {α : Type} (step : α → Pass Unit) : List α → Pass Unit
  | [] => pure ()
  | item :: items => do
    step item
    forEach step items

/-- Resolves one document at the root of a plan; `expand` follows its references. A document that
the caller may not see is refused before the store is asked. -/
def resolveOne (permission : Permission) (plan : Plan) (expand : Entity → Pass Unit) (id : String) :
    Pass (Option Entity) := do
  let node := plan.info
  if permission.check node.collection id then
    let memo ← get
    let entity : Option Entity ←
      match memo.entity? node.id id with
      | some entity => do
        modify fun m => { m with hits := m.hits + 1 }
        pure entity
      | none => do
        modify fun m => { m with gets := m.gets + 1 }
        let entity ← ask (.get node.collection id plan.projection)
        modify fun m => { m with entities := ((node.id, id), entity) :: m.entities }
        pure entity
    match entity with
    | some found => expand found
    | none => pure ()
    return entity
  else throw (.forbidden node.collection id)

/-- Resolves the page of a collection at the root of a plan for a referring document; `expand`
follows the references of a document. The filter `link` picks what the document refers to; the scope
of the node, the permission, order and window come on top. -/
def resolveMany (permission : Permission) (plan : Plan) (expand : Entity → Pass Unit)
    (parent : Option String) (link : Filter) : Pass (List Entity) := do
  let node := plan.info
  let memo ← get
  match memo.page? node.id parent with
  | some page =>
    modify fun m => { m with hits := m.hits + 1 }
    return page
  | none =>
    let filter ←
      match permission.narrow node.collection (link ++ node.scope.filter) with
      | .ok filter => pure filter
      | .error error => throw error
    modify fun m => { m with finds := m.finds + 1 }
    let found : List Entity ← ask (.find node.collection filter plan.projection)
    let page := node.scope.window (node.scope.order.sort found)
    forEach expand page
    modify fun m => { m with pages := ((node.id, parent), page) :: m.pages }
    return page

/-- The filter that picks what a document refers to by a many link: the linked ids or, without a
field for the target, the documents that refer back to it. A field that is no link picks nothing. -/
def linkFilter? (collection : String) (e : Entity) (target : String) : Option Filter :=
  match e.link target with
  | .many ids => some [⟨idField, .isIn (ids.map .string)⟩]
  | .single id => some [⟨idField, .isIn [.string id]⟩]
  | .absent => some [⟨collection, .equals (.string e.id)⟩]
  | .invalid => none

mutual

/-- Follows the references of a document, once per node. -/
def expand (permission : Permission) : Plan → Entity → Pass Unit
  | .node info ones manys, e => do
    if ones.isEmpty && manys.isEmpty then pure ()
    else
      let memo ← get
      if memo.isExpanded info.id e.id then pure ()
      else
        followOnes permission ones e
        followManys permission info.collection manys e
        modify fun m => { m with expanded := (info.id, e.id) :: m.expanded }

/-- Follows the single references of a document. -/
def followOnes (permission : Permission) : List (String × Plan) → Entity → Pass Unit
  | [], _ => pure ()
  | (target, child) :: rest, e => do
    match e.link target with
    | .single id => discard (resolveOne permission child (expand permission child) id)
    | _ => pure ()
    followOnes permission rest e

/-- Follows the many references of a document of the given collection. -/
def followManys (permission : Permission) (collection : String) :
    List (String × Plan) → Entity → Pass Unit
  | [], _ => pure ()
  | (target, child) :: rest, e => do
    match linkFilter? collection e target with
    | some link =>
      discard (resolveMany permission child (expand permission child) (some e.id) link)
    | none => pure ()
    followManys permission collection rest e

end

/-- Resolves one document and all that its plan refers to. -/
def one (permission : Permission) (plan : Plan) (id : String) : Pass (Option Entity) :=
  resolveOne permission plan (expand permission plan) id

/-- Resolves a page and all that its plan refers to. -/
def many (permission : Permission) (plan : Plan) (parent : Option String) (link : Filter) :
    Pass (List Entity) :=
  resolveMany permission plan (expand permission plan) parent link

end Pass

end LinkedDocs
