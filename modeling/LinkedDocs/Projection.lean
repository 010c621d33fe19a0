import LinkedDocs.Entity

/-!
# Projections

A projection says which fields a store call must return. The id is always among them, since what is
fetched is filed under it.
-/

namespace LinkedDocs

/-- Which fields of a document are asked for. -/
inductive Projection where
  | all
  | fields (names : List String)
  deriving DecidableEq

namespace Projection

/-- Whether every field is asked for. -/
def isAll : Projection → Bool
  | .all => true
  | .fields _ => false

/-- Whether a field is kept. -/
def includes : Projection → String → Bool
  | .all, _ => true
  | .fields names, field => field == idField || names.contains field

/-- Drops the fields that are not asked for. -/
def apply (p : Projection) (fields : Fields) : Fields := fields.filter fun name _ => p.includes name

@[simp] theorem includes_id (p : Projection) : p.includes idField = true := by
  cases p <;> simp [includes]

theorem get?_apply (p : Projection) (fields : Fields) (name : String) :
    (p.apply fields).get? name = if p.includes name then fields.get? name else none := by
  rw [apply, Dict.get?_filter]
  cases fields.get? name with
  | none => simp
  | some value => cases p.includes name <;> simp

theorem apply_all (fields : Fields) : Projection.all.apply fields = fields := by
  apply Dict.ext
  simp [apply, includes]

end Projection

end LinkedDocs
