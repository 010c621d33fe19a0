import LinkedDocs.Answer
import LinkedDocs.Proofs.Permission.Narrowing
import LinkedDocs.Proofs.Store.Reads
import LinkedDocs.Request

/-!
# Plain reading

What a request means can be said without plans, passes and memos: walk along the selector and look
up each reference where it stands. A document is loaded whole, afresh each time, once the permission
is checked. A many reference searches its collection for what the link, its own filter and the
permission let through, and then sorts and windows. Each selector writes its keys in its turn.

A reading that comes to something the caller may not see, or to a store that does not answer, has no
result.
-/

namespace LinkedDocs.Plain

variable (m : Memory) (p : Permission)

/-- Loads a whole document that the caller may see; `some none` if it does not exist. -/
def document (collection id : String) : Option (Option Entity) :=
  if p.check collection id then (m.reply (.get collection id .all)).toOption else none

/-- Loads the page of whole documents that a link and a scope pick. A condition that names an id
that is not granted is refused; else what is not granted is left out, before sorting and windowing.
-/
def page (collection : String) (link : Filter) (scope : Scope) : Option (List Entity) :=
  if p.refuses collection (link ++ scope.filter) then none
  else do
    let all : List Entity ← (m.reply (.find collection [] .all)).toOption
    return scope.window (scope.order.sort (all.filter fun e =>
      Filter.holds (link ++ scope.filter) e && p.check collection e.id))

mutual

/-- Writes what a selector asks for of a document of a collection, every key with `start` in front.
-/
def write : Selector → (collection : String) → Entity → (start : String) → Fields → Option Fields
  | .wildcard, _, e, start, out => some (Answer.writeFields start out e)
  | .field name, _, e, start, out =>
    match e.get? name with
    | some value => some (out.set (start ++ name) value)
    | none => some out
  | .list items, collection, e, start, out => writeItems items collection e start out
  | .one target sub, _, e, start, out =>
    match e.link target with
    | .single id => do
      match ← document m p target id with
      | none => return out
      | some found => writeOne sub target found (start ++ Selector.sign false target) out
    | _ => some out
  | .many target sub scope, collection, e, start, out =>
    match Pass.linkFilter? collection e target with
    | none => some out
    | some link => do
      let members ← page m p target link scope
      writeMany sub target members (start ++ Selector.sign true target) out

/-- Writes what several selectors ask for. -/
def writeItems :
    List Selector → (collection : String) → Entity → (start : String) → Fields → Option Fields
  | [], _, _, _, out => some out
  | item :: items, collection, e, start, out => do
    let out ← write item collection e start out
    writeItems items collection e start out

/-- Writes what stands below a single reference. -/
def writeOne : Option Selector → (collection : String) → (found : Entity) → (key : String) →
    Fields → Option Fields
  | none, _, found, key, out => some (out.set key found.toValue)
  | some .wildcard, _, found, key, out => some (out.set key found.toValue)
  | some (.list items), collection, found, key, out => do
    let object ← writeItems items collection found "" .empty
    return out.set key (.ofFields object)
  | some sub, collection, found, key, out => write sub collection found (key ++ ".") out

/-- Writes what stands below a many reference. -/
def writeMany : Option Selector → (collection : String) → (members : List Entity) →
    (key : String) → Fields → Option Fields
  | none, _, members, key, out => some (out.set key (.array (members.map Entity.toValue)))
  | some .wildcard, _, members, key, out =>
    some (out.set key (.array (members.map Entity.toValue)))
  | some (.list items), collection, members, key, out => do
    let objects ← members.mapM fun member => writeItems items collection member "" .empty
    return out.set key (.array (objects.map .ofFields))
  | some (.field name), _, members, key, out =>
    some (out.set (key ++ "." ++ name) (.array (Answer.collect name members)))
  | some sub, collection, members, key, out => do
    let written ← members.mapM fun member => write sub collection member (key ++ ".") .empty
    match Answer.gather written with
    | some (name, values) => return out.set name (.array values)
    | none => return out

end

/-- The answer for a document: without a selector the whole document. -/
def ofEntity (select : Option Selector) (collection : String) (e : Entity) : Option Value :=
  match select with
  | none => some e.toValue
  | some selector => (write m p selector collection e "" .empty).map .ofFields

/-- Reads one document. -/
def one (collection id : String) (request : Request) : Option (Option Value) := do
  match ← document m p collection id with
  | none => return none
  | some e => return some (← ofEntity m p request.select collection e)

/-- Reads the page of a collection that the request describes. -/
def many (collection : String) (request : Request) : Option (List Value) := do
  let members ← page m p collection [] request.scope
  members.mapM (ofEntity m p request.select collection)

end LinkedDocs.Plain
