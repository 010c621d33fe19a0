import LinkedDocs.Proofs.Dict
import LinkedDocs.Proofs.Reading.Rendering

/-!
# Answers below a reference

What stands below a reference is written by the same code as an answer of its own, but into other
fields and under other keys: a chain is written flat, with the reference and a point in front of
every key. Neither the keys in front nor the fields that are there have a say in what is written:

> `write_prefixed`: writing with more in front of the keys gives the same keys with more in front.

So what is written below a reference is made of the answer that a query gives for the document, or
the documents, that the reference leads to (`ofFields_writeOne`, `ofFields_writeMany`).
-/

namespace LinkedDocs

/-! ## Names with something in front -/

/-- The map with `start` in front of every name. -/
def Dict.prefixed {α : Type} (start : String) (d : Dict α) : Dict α :=
  ⟨d.entries.map fun pair => (start ++ pair.1, pair.2), by
    have h : (d.entries.map fun pair => (start ++ pair.1, pair.2)).map Prod.fst
        = (d.entries.map Prod.fst).map (start ++ ·) := by
      rw [List.map_map, List.map_map]
      rfl
    rw [h]
    exact d.nodup.map fun _ _ => String.append_right_inj start |>.mp⟩

/-- The value with `start` in front of every key, if it is an object. -/
def Value.prefixKeys (start : String) : Value → Value
  | .object members => .object (members.map fun member => (start ++ member.1, member.2))
  | value => value

theorem Dict.set_prefixed {α : Type} (start : String) (d : Dict α) (name : String) (value : α) :
    (d.prefixed start).set (start ++ name) value = (d.set name value).prefixed start := by
  apply Dict.ext
  show put (start ++ name) value (d.entries.map fun pair => (start ++ pair.1, pair.2))
    = (put name value d.entries).map fun pair => (start ++ pair.1, pair.2)
  induction d.entries with
  | nil => rfl
  | cons pair rest ih =>
    obtain ⟨key, old⟩ := pair
    rw [List.map_cons, put, put]
    by_cases h : key = name
    · rw [if_pos h, if_pos (congrArg _ h)]
      rfl
    · rw [if_neg h, if_neg (mt (String.append_right_inj start).mp h), ih]
      rfl

theorem Dict.get?_prefixed {α : Type} (start : String) (d : Dict α) (name : String) :
    (d.prefixed start).get? (start ++ name) = d.get? name := by
  show List.lookup (start ++ name) (d.entries.map fun pair => (start ++ pair.1, pair.2))
    = d.entries.lookup name
  induction d.entries with
  | nil => rfl
  | cons pair rest ih =>
    obtain ⟨key, value⟩ := pair
    rw [List.map_cons, lookup_cons, lookup_cons, ih]
    exact if_congr (String.append_right_inj start) rfl rfl

/-- Every name has `start` in front. -/
theorem Dict.get?_prefixed_eq_none {α : Type} {start key : String} (h : ∀ name, key ≠ start ++ name)
    (d : Dict α) : (d.prefixed start).get? key = none := by
  rw [get?_eq_none_iff, keys]
  intro hmem
  obtain ⟨_, hpair, rfl⟩ := List.mem_map.mp hmem
  obtain ⟨pair, -, rfl⟩ := List.mem_map.mp hpair
  exact h pair.1 rfl

namespace Answer

/-! ## Writing with more in front -/

theorem writeFields_prefixed (pre start : String) (out : Fields) (e : Entity) :
    writeFields (pre ++ start) (out.prefixed pre) e = (writeFields start out e).prefixed pre := by
  unfold writeFields
  induction e.fields.entries generalizing out with
  | nil => rfl
  | cons pair rest ih =>
    rw [List.foldl_cons, List.foldl_cons, String.append_assoc, Dict.set_prefixed, ih]

/-- The members of several maps under other names. -/
theorem gather_prefixed (pre : String) (written : List Fields) :
    gather (written.map (·.prefixed pre))
      = (gather written).map fun (name, values) => (pre ++ name, values) := by
  have hentries : (written.map (·.prefixed pre)).flatMap (·.entries)
      = (written.flatMap (·.entries)).map fun pair => (pre ++ pair.1, pair.2) := by
    rw [List.flatMap_map, List.map_flatMap]
    rfl
  unfold gather
  rw [hentries, List.filter_map]
  dsimp only [Function.comp_def]
  generalize (written.flatMap (·.entries)).filter (fun pair => !pair.2.isNull) = pairs
  cases pairs with
  | nil => rfl
  | cons pair rest =>
    rw [List.map_cons, List.head?_cons, Option.map_some, List.head?_cons, Option.map_some,
      Option.map_some, List.map_cons, List.map_cons, List.map_map]
    rfl

/-- What a chain writes below a many reference, with more in front. -/
theorem gathered_prefixed {α : Type} (pre : String) (out : Fields) (members : List α)
    {step step' : α → Fields} (h : ∀ member, step' member = (step member).prefixed pre) :
    (match gather (members.map step') with
      | some (name, values) => (out.prefixed pre).set name (.array values)
      | none => out.prefixed pre)
      = (match gather (members.map step) with
          | some (name, values) => out.set name (.array values)
          | none => out).prefixed pre := by
  have hwritten : members.map step' = (members.map step).map (·.prefixed pre) := by
    rw [List.map_map]
    exact List.map_congr_left fun member _ => h member
  rw [hwritten, gather_prefixed]
  cases gather (members.map step) with
  | none => rfl
  | some gathered => exact Dict.set_prefixed ..

variable (memo : Memo) (pre : String)

mutual

/-- Writing with more in front of the keys. -/
theorem write_prefixed : ∀ (selector : Selector) (plan : Plan) (e : Entity) (start : String)
    (out : Fields), write memo selector plan e (pre ++ start) (out.prefixed pre)
      = (write memo selector plan e start out).prefixed pre
  | .wildcard, _, e, start, out => writeFields_prefixed pre start out e
  | .field name, _, e, start, out => by
    rw [write, write]
    cases e.get? name with
    | some value =>
      dsimp only
      rw [String.append_assoc, Dict.set_prefixed]
    | none => rfl
  | .list items, plan, e, start, out => by
    rw [write, write]
    exact writeItems_prefixed items plan e start out
  | .one target sub, plan, e, start, out => by
    rw [write, write]
    cases plan.ones.lookup target with
    | none => rfl
    | some child =>
      dsimp only
      cases referenced? memo child e target with
      | none => rfl
      | some found =>
        dsimp only
        rw [String.append_assoc]
        exact writeOne_prefixed sub child found _ out
  | .many target sub _, plan, e, start, out => by
    rw [write, write]
    cases plan.manys.lookup target with
    | none => rfl
    | some child =>
      dsimp only
      cases members? memo child e with
      | none => rfl
      | some members =>
        dsimp only
        rw [String.append_assoc]
        exact writeMany_prefixed sub child members _ out

theorem writeItems_prefixed : ∀ (items : List Selector) (plan : Plan) (e : Entity)
    (start : String) (out : Fields),
      writeItems memo items plan e (pre ++ start) (out.prefixed pre)
        = (writeItems memo items plan e start out).prefixed pre
  | [], _, _, _, _ => rfl
  | item :: items, plan, e, start, out => by
    rw [writeItems, writeItems, write_prefixed item plan e start out]
    exact writeItems_prefixed items plan e start _

/-- Below a single reference. -/
theorem writeOne_prefixed : ∀ (sub : Option Selector) (child : Plan) (found : Entity)
    (key : String) (out : Fields), writeOne memo sub child found (pre ++ key) (out.prefixed pre)
      = (writeOne memo sub child found key out).prefixed pre
  | none, _, _, _, _ | some .wildcard, _, _, _, _ | some (.list _), _, _, _, _ =>
    Dict.set_prefixed ..
  | some (.field name), child, found, key, out => by
    have h := write_prefixed (.field name) child found (key ++ ".") out
    rwa [← String.append_assoc] at h
  | some (.one target sub), child, found, key, out => by
    have h := write_prefixed (.one target sub) child found (key ++ ".") out
    rwa [← String.append_assoc] at h
  | some (.many target sub scope), child, found, key, out => by
    have h := write_prefixed (.many target sub scope) child found (key ++ ".") out
    rwa [← String.append_assoc] at h

/-- Below a many reference. -/
theorem writeMany_prefixed : ∀ (sub : Option Selector) (child : Plan) (members : List Entity)
    (key : String) (out : Fields),
      writeMany memo sub child members (pre ++ key) (out.prefixed pre)
        = (writeMany memo sub child members key out).prefixed pre
  | none, _, _, _, _ | some .wildcard, _, _, _, _ | some (.list _), _, _, _, _ =>
    Dict.set_prefixed ..
  | some (.field name), _, members, key, out => by
    have hkey : pre ++ key ++ "." ++ name = pre ++ (key ++ "." ++ name) := by
      simp only [String.append_assoc]
    rw [writeMany, writeMany, hkey, Dict.set_prefixed]
  | some (.one target sub), child, members, key, out => by
    rw [writeMany, writeMany, String.append_assoc]
    · exact gathered_prefixed pre out members fun member =>
        write_prefixed (.one target sub) child member (key ++ ".") .empty
    all_goals simp
  | some (.many target sub scope), child, members, key, out => by
    rw [writeMany, writeMany, String.append_assoc]
    · exact gathered_prefixed pre out members fun member =>
        write_prefixed (.many target sub scope) child member (key ++ ".") .empty
    all_goals simp

end

/-! ## References -/

/-- All fields of a document, written by themselves, are the document. -/
theorem writeFields_empty (e : Entity) : writeFields "" .empty e = e.fields := by
  unfold writeFields
  simp only [String.empty_append]
  exact Dict.ext (Dict.entries_ofList e.fields.nodup)

/-- With all fields of a document asked for, its answer is the document. -/
theorem ofEntity_wildcard (child : Plan) : ofEntity memo child (some .wildcard) = Entity.toValue := by
  funext e
  rw [ofEntity, write, writeFields_empty]
  rfl

/-- With a list or nothing below it, a single reference is one key with the answer for the document.
-/
theorem writeOne_of_not_chain {sub : Option Selector} (hsub : sub.any isChain = false)
    (child : Plan) (found : Entity) (key : String) (out : Fields) :
    writeOne memo sub child found key out = out.set key (ofEntity memo child sub found) := by
  cases sub with
  | none => rfl
  | some selector =>
    cases selector with
    | wildcard => rw [writeOne, ofEntity_wildcard]
    | list items => rfl
    | field | one | many => cases hsub

/-- A many reference is one key with the answers. -/
theorem writeMany_of_not_chain {sub : Option Selector} (hsub : sub.any isChain = false)
    (child : Plan) (members : List Entity) (key : String) (out : Fields) :
    writeMany memo sub child members key out
      = out.set key (.array (members.map (ofEntity memo child sub))) := by
  cases sub with
  | none => rfl
  | some selector =>
    cases selector with
    | wildcard => rw [writeMany, ofEntity_wildcard]
    | list items => rfl
    | field | one | many => cases hsub

/-- What stands below a single reference, made of the answer for the document that it leads to: no
key if there is none, one key, or the keys of the answer with the reference in front. -/
def embedded (target : String) (sub : Option Selector) : Option Value → Value
  | none => .object []
  | some value =>
    if sub.any isChain then value.prefixKeys ("@" ++ target ++ ".")
    else .object [("@" ++ target, value)]

/-- What is written below a single reference. -/
theorem ofFields_writeOne (sub : Option Selector) (child : Plan) (found : Entity)
    (target : String) :
    Value.ofFields (writeOne memo sub child found ("@" ++ target) .empty)
      = embedded target sub (some (ofEntity memo child sub found)) := by
  -- the keys of a chain have the reference and a point in front
  have hchain : ∀ selector, Value.ofFields
      (write memo selector child found ("@" ++ target ++ ".") .empty)
        = (ofEntity memo child (some selector) found).prefixKeys ("@" ++ target ++ ".") := by
    intro selector
    have h := write_prefixed memo ("@" ++ target ++ ".") selector child found "" .empty
    rw [String.append_empty] at h
    exact congrArg Value.ofFields h
  cases sub with
  | none => exact congrArg Value.ofFields (writeOne_of_not_chain memo rfl ..)
  | some selector =>
    cases selector with
    | wildcard | list => exact congrArg Value.ofFields (writeOne_of_not_chain memo rfl ..)
    | field | one | many => exact hchain _

/-- What is written below a many reference with a list or nothing below it. -/
theorem ofFields_writeMany {sub : Option Selector} (hsub : sub.any isChain = false) (child : Plan)
    (members : List Entity) (target : String) :
    Value.ofFields (writeMany memo sub child members ("@[" ++ target ++ "]") .empty)
      = .object [("@[" ++ target ++ "]", .array (members.map (ofEntity memo child sub)))] := by
  rw [writeMany_of_not_chain memo hsub]
  rfl

end Answer

end LinkedDocs
