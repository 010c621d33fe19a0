import LinkedDocs.Pass

/-!
# Answers

When a pass is over, the answer for a document is written from what the pass has resolved. The keys
follow the selector, not the plan: each selector writes what it asks for, in its order, and of two
that write one key the later one gives the value and the earlier one the place.

A reference with a list or nothing below it is one key, `@target` or `@[target]`. A longer chain is
written flat: what the rest of the chain writes gets the reference and a point in front of its key.
Below a many reference a chain collects the values of all documents into one array, leaving out
`null`.
-/

namespace LinkedDocs

namespace Answer

/-- The document that a single reference has led to. -/
def referenced? (memo : Memo) (child : Plan) (e : Entity) (target : String) : Option Entity :=
  match e.link target with
  | .single id => (memo.entity? child.info.id id).join
  | _ => none

/-- The documents that a many reference has led to. -/
def members? (memo : Memo) (child : Plan) (e : Entity) : Option (List Entity) :=
  memo.page? child.info.id (some e.id)

/-- Writes all fields of a document. -/
def writeFields (start : String) (out : Fields) (e : Entity) : Fields :=
  e.fields.entries.foldl (fun out pair => out.set (start ++ pair.1) pair.2) out

/-- The values of a field over several documents, without `null`. -/
def collect (name : String) (members : List Entity) : List Value :=
  (members.filterMap (·.get? name)).filter fun value => !value.isNull

/-- What chains have written, one object for each document, as one key with all values; `null` is
left out. The key is that of the first value. -/
def gather (written : List Fields) : Option (String × List Value) :=
  let pairs := (written.flatMap (·.entries)).filter fun pair => !pair.2.isNull
  pairs.head?.map fun pair => (pair.1, pairs.map Prod.snd)

mutual

/-- Writes what a selector asks for of a document, every key with `start` in front. -/
def write (memo : Memo) : Selector → Plan → Entity → (start : String) → Fields → Fields
  | .wildcard, _, e, start, out => writeFields start out e
  | .field name, _, e, start, out =>
    match e.get? name with
    | some value => out.set (start ++ name) value
    | none => out
  | .list items, plan, e, start, out => writeItems memo items plan e start out
  | .one target sub, plan, e, start, out =>
    match plan.ones.lookup target with
    | none => out
    | some child =>
      match referenced? memo child e target with
      | none => out
      | some found => writeOne memo sub child found (start ++ Selector.sign false target) out
  | .many target sub _, plan, e, start, out =>
    match plan.manys.lookup target with
    | none => out
    | some child =>
      match members? memo child e with
      | none => out
      | some members => writeMany memo sub child members (start ++ Selector.sign true target) out

/-- Writes what several selectors ask for. -/
def writeItems (memo : Memo) : List Selector → Plan → Entity → (start : String) → Fields → Fields
  | [], _, _, _, out => out
  | item :: items, plan, e, start, out =>
    writeItems memo items plan e start (write memo item plan e start out)

/-- Writes what stands below a single reference. -/
def writeOne (memo : Memo) :
    Option Selector → Plan → (found : Entity) → (key : String) → Fields → Fields
  | none, _, found, key, out => out.set key found.toValue
  | some .wildcard, _, found, key, out => out.set key found.toValue
  | some (.list items), child, found, key, out =>
    out.set key (.ofFields (writeItems memo items child found "" .empty))
  | some sub, child, found, key, out => write memo sub child found (key ++ ".") out

/-- Writes what stands below a many reference. -/
def writeMany (memo : Memo) :
    Option Selector → Plan → (members : List Entity) → (key : String) → Fields → Fields
  | none, _, members, key, out => out.set key (.array (members.map Entity.toValue))
  | some .wildcard, _, members, key, out => out.set key (.array (members.map Entity.toValue))
  | some (.list items), child, members, key, out =>
    out.set key (.array (members.map fun member =>
      .ofFields (writeItems memo items child member "" .empty)))
  | some (.field name), _, members, key, out =>
    out.set (key ++ "." ++ name) (.array (collect name members))
  | some sub, child, members, key, out =>
    match gather (members.map fun member => write memo sub child member (key ++ ".") .empty) with
    | some (name, values) => out.set name (.array values)
    | none => out

end

/-- The answer for a document: without a selector the whole document. -/
def ofEntity (memo : Memo) (plan : Plan) (select : Option Selector) (e : Entity) : Value :=
  match select with
  | none => e.toValue
  | some selector => .ofFields (write memo selector plan e "" .empty)

end Answer

end LinkedDocs
