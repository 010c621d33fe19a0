import LinkedDocs.Projection
import LinkedDocs.Selector.Basic

/-!
# Plans

A plan is the tree of the collections that a selector reaches, one node for each path of references:
selectors side by side that follow the same reference share a node, so what they refer to is fetched
once. A node holds the fields that are read there and, for a many reference, its scope; the children
are sorted by target. Nodes are numbered in the order in which they are made, the root being zero.

Two many references that share a node must have the same scope.
-/

namespace LinkedDocs

/-- What is fetched at a node of a plan, apart from the references followed there. -/
structure PlanNode where
  id : Nat
  collection : String
  /-- The plain fields, sorted. -/
  fields : List String
  /-- Whether whole documents are read. -/
  full : Bool
  scope : Scope

/-- A tree of collections, with single and many references as edges, each sorted by target. -/
inductive Plan where
  | node (info : PlanNode) (ones manys : List (String × Plan))

namespace Plan

/-- What is fetched at the root. -/
def info : Plan → PlanNode
  | .node info _ _ => info

/-- The single references followed from the root. -/
def ones : Plan → List (String × Plan)
  | .node _ ones _ => ones

/-- The many references followed from the root. -/
def manys : Plan → List (String × Plan)
  | .node _ _ manys => manys

/-- Whether references are followed from the root. -/
def hasChildren (p : Plan) : Bool := !(p.ones.isEmpty && p.manys.isEmpty)

/-- A plan of one node that reads nothing. -/
def leaf (id : Nat) (collection : String) (scope : Scope) : Plan :=
  .node ⟨id, collection, [], false, scope⟩ [] []

/-- Reads whole documents at the root. -/
def readAll : Plan → Plan
  | .node info ones manys => .node { info with full := true } ones manys

/-- Reads a field at the root. -/
def readField (name : String) : Plan → Plan
  | .node info ones manys => .node { info with fields := insertName name info.fields } ones manys

/-- Puts a single reference in. -/
def withOne (p : Plan) (target : String) (child : Plan) : Plan :=
  .node p.info (putSorted target child p.ones) p.manys

/-- Puts a many reference in. -/
def withMany (p : Plan) (target : String) (child : Plan) : Plan :=
  .node p.info p.ones (putSorted target child p.manys)

mutual

/-- Number of nodes. -/
def nodeCount : Plan → Nat
  | .node _ ones manys => 1 + countChildren ones + countChildren manys

/-- Number of nodes of all children. -/
def countChildren : List (String × Plan) → Nat
  | [] => 0
  | (_, child) :: rest => nodeCount child + countChildren rest

end

/-- What a store call for the root must return: besides the fields that are read, the fields through
which references are followed and those that are sorted by. -/
def projection (p : Plan) : Projection :=
  if p.info.full then .all
  else .fields (sortedNames (p.info.fields ++ p.ones.map Prod.fst ++ p.manys.map Prod.fst
    ++ p.info.scope.order.map SortKey.field))

/-- Two many references to one target have different scopes. -/
def conflict (target : String) (sub : Option Selector) (scope : Scope) : QueryError :=
  .badSelector (Selector.many target sub scope).text (.conflictingScopes target)

mutual

/-- Adds to a plan what a selector reads; `next` is the number of the next node. -/
def load : Selector → Plan → (next : Nat) → Except QueryError (Plan × Nat)
  | .wildcard, p, next => .ok (p.readAll, next)
  | .field name, p, next => .ok (p.readField name, next)
  | .list items, p, next => loadItems items p next
  | .one target sub, p, next =>
    match p.ones.lookup target with
    | some child =>
      (loadSub sub child next).map fun (child, next) => (p.withOne target child, next)
    | none =>
      (loadSub sub (leaf next target .unrestricted) (next + 1)).map fun (child, next) =>
        (p.withOne target child, next)
  | .many target sub scope, p, next =>
    match p.manys.lookup target with
    | some child =>
      if child.info.scope.same scope then
        (loadSub sub child next).map fun (child, next) => (p.withMany target child, next)
      else .error (conflict target sub scope)
    | none =>
      (loadSub sub (leaf next target scope) (next + 1)).map fun (child, next) =>
        (p.withMany target child, next)

/-- Adds what is read at the end of a reference: without a selector whole documents. -/
def loadSub : Option Selector → Plan → (next : Nat) → Except QueryError (Plan × Nat)
  | none, p, next => .ok (p.readAll, next)
  | some selector, p, next => load selector p next

/-- Adds what several selectors read. -/
def loadItems : List Selector → Plan → (next : Nat) → Except QueryError (Plan × Nat)
  | [], p, next => .ok (p, next)
  | item :: items, p, next =>
    match load item p next with
    | .ok (p, next) => loadItems items p next
    | .error error => .error error

end

/-- The plan for reading a collection; the scope is that of the root. -/
def build (collection : String) (select : Option Selector) (scope : Scope) :
    Except QueryError Plan :=
  (loadSub select (leaf 0 collection scope) 1).map Prod.fst

end Plan

end LinkedDocs
