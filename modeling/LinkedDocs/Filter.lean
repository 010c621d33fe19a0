import LinkedDocs.Entity
import LinkedDocs.Glob.Pattern

/-!
# Filters

A filter is a list of conditions that must all hold; the empty filter lets everything through. A
condition tests one field, an absent field counting as `null`. Scalars are compared by their text,
so `1` and `"1"` are equal; other values by `Value.same`. Where a field holds an array, one matching
item is enough, unless the test asks for an array itself.
-/

namespace LinkedDocs

/-- Equality of field values: scalars by their text, all else by value. -/
def Value.equalTo (a b : Value) : Bool :=
  match a.scalarText?, b.scalarText? with
  | some s, some t => s == t
  | _, _ => a.same b

/-- What a field is tested for. -/
inductive Test where
  /-- It equals the value. -/
  | equals (value : Value)
  /-- It equals one of the values. -/
  | isIn (values : List Value)
  /-- Its text matches the pattern. -/
  | glob (pattern : Glob.Pattern)

namespace Test

/-- Whether a single value passes. -/
def passes : Test → Value → Bool
  | .equals expected, value => expected.equalTo value
  | .isIn candidates, value => candidates.any (·.equalTo value)
  | .glob pattern, value =>
    match value.scalarText? with
    | some text => pattern.isMatch text
    | none => false

/-- Whether the test asks for an array as a whole. -/
def wantsArray : Test → Bool
  | .equals (.array _) => true
  | _ => false

/-- Whether a field passes: its value does or, for an array, one of its items. -/
def holds (t : Test) (field : Option Value) : Bool :=
  let value := field.getD .null
  t.passes value ||
    match value with
    | .array items => !t.wantsArray && items.any t.passes
    | _ => false

/-- Whether two tests are the same: values by `Value.same`, patterns by their source. -/
def same : Test → Test → Bool
  | .equals a, .equals b => a.same b
  | .isIn as, .isIn bs => decide (as.map Value.normal = bs.map Value.normal)
  | .glob p, .glob q => p.source == q.source
  | _, _ => false

end Test

/-- A test of one field. -/
structure Condition where
  field : String
  test : Test

/-- Whether an entity meets a condition. -/
def Condition.holds (c : Condition) (e : Entity) : Bool := c.test.holds (e.get? c.field)

/-- Whether two conditions are the same. -/
def Condition.same (a b : Condition) : Bool := a.field == b.field && a.test.same b.test

/-- Conditions that must all hold, in the order in which they were added. -/
abbrev Filter := List Condition

namespace Filter

/-- Whether an entity meets all conditions. -/
def holds (f : Filter) (e : Entity) : Bool := f.all (·.holds e)

/-- The tests that a filter makes on a field, and the conditions on other fields. -/
def takeField (f : Filter) (field : String) : List Test × Filter :=
  ((f.filter (·.field == field)).map (·.test), f.filter (·.field != field))

/-- Whether two filters have the same conditions in the same order. -/
def same : Filter → Filter → Bool
  | [], [] => true
  | a :: as, b :: bs => a.same b && same as bs
  | _, _ => false

@[simp] theorem holds_nil (e : Entity) : holds [] e = true := rfl

@[simp] theorem holds_cons (c : Condition) (f : Filter) (e : Entity) :
    holds (c :: f) e = (c.holds e && holds f e) := rfl

@[simp] theorem holds_append (f g : Filter) (e : Entity) :
    holds (f ++ g) e = (holds f e && holds g e) := by
  simp [holds]

end Filter

end LinkedDocs
