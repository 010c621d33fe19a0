import LinkedDocs.Proofs.Reading.Flattening

/-!
# One key for each chain

A field or a reference is a chain (`Answer.isChain`). Its key is known before any document is read:
`Selector.key?` follows the chain down to its end, or to the first list or wildcard, behind which
nothing is written flat any more. Without those the key is the written form of the selector.

> `Answer.answered_under_key`: whatever the plan, the memo and the document are, a chain writes
> nothing or a value under its key, which is the only thing it does.

The value (`Answer.value?`) is found by following the chain, with no regard to keys. Below a many
reference a chain is written for each document apart, and the key of the first one with a value
stands for all. That loses nothing, since all have the same key, and at most one value each.
-/

namespace LinkedDocs

namespace Selector

mutual

/-- The key that a chain is answered under. Several selectors, or all fields, have none. -/
def key? : Selector → Option String
  | .wildcard | .list _ => none
  | .field name => some name
  | .one target sub => some (sign false target ++ keyBelow sub)
  | .many target sub _ => some (sign true target ++ keyBelow sub)

/-- What stands below a reference adds its key to that of the reference, if it has one. -/
def keyBelow : Option Selector → String
  | none => ""
  | some sub =>
    match sub.key? with
    | some key => "." ++ key
    | none => ""

end

/-- Neither a list nor a wildcard stands in the selector, at any depth. -/
def isPath : Selector → Bool
  | .wildcard | .list _ => false
  | .field _ | .one _ none | .many _ none _ => true
  | .one _ (some sub) | .many _ (some sub) _ => sub.isPath

mutual

/-- The key of a path is its written form. -/
theorem key?_eq_text : ∀ {selector : Selector}, selector.isPath = true →
    selector.key? = some selector.text
  | .field _, _ => rfl
  | .one target sub, h => by
    rw [key?, text, keyBelow_eq_subText fun sub' hsub => by subst hsub; exact h]
  | .many target sub _, h => by
    rw [key?, text, keyBelow_eq_subText fun sub' hsub => by subst hsub; exact h]

theorem keyBelow_eq_subText : ∀ {sub : Option Selector},
    (∀ selector, sub = some selector → selector.isPath = true) → keyBelow sub = subText sub
  | none, _ => rfl
  | some selector, h => by
    have hpath := h selector rfl
    rw [keyBelow, key?_eq_text hpath]
    cases selector with
    | wildcard | list => cases hpath
    | field | one | many => rfl

end

end Selector

namespace Answer

open Selector (key? keyBelow)

variable (memo : Memo)

/-- The values that several documents have, one at most each, without `null`. -/
def collected (value? : Entity → Option Value) (members : List Entity) : List Value :=
  members.filterMap fun member => (value? member).filter fun value => !value.isNull

mutual

/-- The value at the end of a chain. Where the chain ends early, it is the answer for the document
that it has led to, or the list of the answers. -/
def value? : Selector → Plan → Entity → Option Value
  | .wildcard, _, _ | .list _, _, _ => none
  | .field name, _, e => e.get? name
  | .one target sub, plan, e =>
    (plan.ones.lookup target).bind fun child =>
      (referenced? memo child e target).bind fun found => valueOne sub child found
  | .many target sub _, plan, e =>
    (plan.manys.lookup target).bind fun child =>
      (members? memo child e).bind fun members => valueMany sub child members

/-- The value below a single reference. -/
def valueOne : Option Selector → Plan → (found : Entity) → Option Value
  | none, _, found => some found.toValue
  | some sub, child, found =>
    if isChain sub then value? sub child found else some (ofEntity memo child (some sub) found)

/-- The value below a many reference. Of a field there is always one, of a longer chain only if it
leads to something. -/
def valueMany : Option Selector → Plan → (members : List Entity) → Option Value
  | none, _, members => some (.array (members.map Entity.toValue))
  | some (.field name), _, members => some (.array (collected (·.get? name) members))
  | some sub, child, members =>
    if isChain sub then
      let values := collected (fun member => value? sub child member) members
      if values.isEmpty then none else some (.array values)
    else some (.array (members.map (ofEntity memo child (some sub))))

end

/-- Exactly the chains have a key. -/
theorem isSome_key? (selector : Selector) : selector.key?.isSome = isChain selector := by
  cases selector <;> rfl

theorem collect_eq_collected (name : String) (members : List Entity) :
    collect name members = collected (·.get? name) members := by
  rw [collect, collected, List.filter_filterMap]

/-- What is gathered of documents that write one key, if any, are their values under that key. -/
theorem gather_of_one_key {key : String} {step : Entity → Fields} {value? : Entity → Option Value}
    (h : ∀ member, step member = (value? member).elim .empty (Dict.empty.set key))
    (members : List Entity) :
    gather (members.map step)
      = if (collected value? members).isEmpty then none
        else some (key, collected value? members) := by
  have hpairs : ((members.map step).flatMap (·.entries)).filter (fun pair => !pair.2.isNull)
      = (collected value? members).map fun value => (key, value) := by
    induction members with
    | nil => rfl
    | cons member rest ih =>
      rw [List.map_cons, List.flatMap_cons, List.filter_append, ih, h member, collected, collected,
        List.filterMap_cons]
      cases value? member with
      | none => rfl
      | some value =>
        cases hnull : value.isNull <;>
          simp [Dict.empty, Dict.set, Dict.put, Option.filter, hnull]
  unfold gather
  dsimp only
  rw [hpairs]
  cases collected value? members with
  | nil => rfl
  | cons value rest => simp [Function.comp_def]

/-- What is written of it below a many reference. -/
theorem gathered_chain {key : String} {step : Entity → Fields} {value? : Entity → Option Value}
    (members : List Entity) (out : Fields)
    (h : ∀ member, step member = (value? member).elim .empty (Dict.empty.set key)) :
    (match gather (members.map step) with
      | some (name, values) => out.set name (.array values)
      | none => out)
      = (if (collected value? members).isEmpty then none
          else some (Value.array (collected value? members))).elim out (out.set key) := by
  rw [gather_of_one_key h]
  cases (collected value? members).isEmpty <;> rfl

mutual

/-- A chain writes nothing or its value, under its key with `start` in front. -/
theorem write_chain : ∀ (selector : Selector) {key : String}, selector.key? = some key →
    ∀ (plan : Plan) (e : Entity) (start : String) (out : Fields),
      write memo selector plan e start out
        = (value? memo selector plan e).elim out (out.set (start ++ key))
  | .field name, _, rfl, plan, e, start, out => by
    rw [write, value?]
    cases e.get? name <;> rfl
  | .one target sub, _, rfl, plan, e, start, out => by
    rw [write, value?]
    cases plan.ones.lookup target with
    | none => rfl
    | some child =>
      dsimp only [Option.bind_some]
      cases referenced? memo child e target with
      | none => rfl
      | some found =>
        dsimp only [Option.bind_some]
        rw [writeOne_chain, String.append_assoc]
  | .many target sub _, _, rfl, plan, e, start, out => by
    rw [write, value?]
    cases plan.manys.lookup target with
    | none => rfl
    | some child =>
      dsimp only [Option.bind_some]
      cases members? memo child e with
      | none => rfl
      | some members =>
        dsimp only [Option.bind_some]
        rw [writeMany_chain, String.append_assoc]

/-- Below a single reference. -/
theorem writeOne_chain : ∀ (sub : Option Selector) (child : Plan) (found : Entity) (key : String)
    (out : Fields), writeOne memo sub child found key out
      = (valueOne memo sub child found).elim out (out.set (key ++ keyBelow sub))
  | none, child, found, key, out | some .wildcard, child, found, key, out
  | some (.list _), child, found, key, out => by
    rw [writeOne_of_not_chain memo rfl]
    exact congrArg (out.set · _) (String.append_empty).symm
  | some (.field name), child, found, key, out => by
    have h := write_chain (.field name) rfl child found (key ++ ".") out
    rwa [String.append_assoc] at h
  | some (.one target sub), child, found, key, out => by
    have h := write_chain (.one target sub) rfl child found (key ++ ".") out
    rwa [String.append_assoc] at h
  | some (.many target sub scope), child, found, key, out => by
    have h := write_chain (.many target sub scope) rfl child found (key ++ ".") out
    rwa [String.append_assoc] at h

/-- Below a many reference. -/
theorem writeMany_chain : ∀ (sub : Option Selector) (child : Plan) (members : List Entity)
    (key : String) (out : Fields), writeMany memo sub child members key out
      = (valueMany memo sub child members).elim out (out.set (key ++ keyBelow sub))
  | none, child, members, key, out | some .wildcard, child, members, key, out
  | some (.list _), child, members, key, out => by
    rw [writeMany_of_not_chain memo rfl]
    exact congrArg (out.set · _) (String.append_empty).symm
  | some (.field name), child, members, key, out => by
    rw [writeMany, valueMany, collect_eq_collected, String.append_assoc]
    rfl
  | some (.one target sub), child, members, key, out => by
    rw [writeMany]
    · exact gathered_chain members out fun member => by
        rw [write_chain (.one target sub) rfl child member (key ++ "."), String.append_assoc]
        rfl
    all_goals simp
  | some (.many target sub scope), child, members, key, out => by
    rw [writeMany]
    · exact gathered_chain members out fun member => by
        rw [write_chain (.many target sub scope) rfl child member (key ++ "."), String.append_assoc]
        rfl
    all_goals simp

end

/-- **A chain is answered under its own key.** Which key that is follows from the selector alone; for
a path it is the written form. Whatever plan, memo and document are, the chain puts its value there,
if it has one, and nothing else. So the answer has one key at most, and of what is written for
several documents nothing is lost when it is gathered: all values stand under the one key, at most
one of each document. -/
theorem answered_under_key {selector : Selector} (hchain : isChain selector = true) :
    ∃ key, selector.key? = some key ∧ (selector.isPath = true → key = selector.text) ∧
      ∀ (memo : Memo) (plan : Plan),
        (∀ e start out, write memo selector plan e start out
          = (value? memo selector plan e).elim out (out.set (start ++ key))) ∧
        (∀ e, ofEntity memo plan (some selector) e
          = .object ((value? memo selector plan e).map fun value => (key, value)).toList) ∧
        ∀ start members,
          gather (members.map fun member => write memo selector plan member start .empty)
            = if (collected (value? memo selector plan) members).isEmpty then none
              else some (start ++ key, collected (value? memo selector plan) members) := by
  rw [← isSome_key?] at hchain
  obtain ⟨key, hkey⟩ := Option.isSome_iff_exists.mp hchain
  refine ⟨key, hkey, ?_, fun memo plan => ⟨?_, ?_, ?_⟩⟩
  · intro hpath
    exact Option.some.inj (hkey.symm.trans (Selector.key?_eq_text hpath))
  · exact write_chain memo selector hkey plan
  · intro e
    rw [ofEntity, write_chain memo selector hkey, String.empty_append]
    cases value? memo selector plan e <;> rfl
  · intro start members
    exact gather_of_one_key (fun member => write_chain memo selector hkey plan member start .empty)
      members

/-- Two disks of a machine, of which one is on a host without a name and one on a host with a name:
below the disks, the names of their hosts are one array under one key. -/
theorem answered_under_key_host_names :
    let selector : Selector := .many "disk" (some (.one "host" (some (.field "name")))) .unrestricted
    let host : Plan := .node ⟨2, "host", ["name"], false, .unrestricted⟩ [] []
    let disk : Plan := .node ⟨1, "disk", [], false, .unrestricted⟩ [("host", host)] []
    let machine : Plan := .node ⟨0, "vm", [], false, .unrestricted⟩ [] [("disk", disk)]
    let entity (id : String) (fields : List (String × Value)) : Entity :=
      .withId (Dict.ofList fields) id
    let memo : Memo := { Memo.empty with
      entities := [((2, "x"), some (entity "x" [("name", .null)])),
        ((2, "y"), some (entity "y" [("name", .string "north")]))]
      pages := [((1, some "1"),
        [entity "a" [("host", .string "x")], entity "b" [("host", .string "y")]])] }
    ofEntity memo machine (some selector) (entity "1" [])
      = .object [("@[disk].@host.name", .array [.string "north"])] := by
  intro selector host disk machine entity memo
  have hchain : isChain selector = true := rfl
  obtain ⟨key, -, htext, hplan⟩ := answered_under_key hchain
  have hkey : key = "@[disk].@host.name" := (htext rfl).trans (by decide)
  have hvalue : value? memo selector machine (entity "1" []) = some (.array [.string "north"]) := by
    decide +kernel
  rw [(hplan memo machine).2.1, hvalue, hkey]
  rfl

end Answer

end LinkedDocs
