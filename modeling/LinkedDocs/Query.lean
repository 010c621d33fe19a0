import LinkedDocs.Answer
import LinkedDocs.Request

/-!
# Queries

A query reads one document or a page of a collection. It makes a plan of the request, resolves it in
a pass of its own, and writes the answers from what the pass has resolved.
-/

namespace LinkedDocs.Query

/-- A dialogue with the store that ends with a result or an error. -/
abbrev Outcome (α : Type) := Dialogue (Except QueryError α)

/-- Makes a plan and resolves it in a pass of its own. -/
def withPlan {α : Type} (plan : Except QueryError Plan)
    (step : Plan → Dialogue (Except QueryError α)) : Outcome α :=
  match plan with
  | .ok plan => step plan
  | .error error => .done (.error error)

/-- Reads one document; none if it does not exist. -/
def one (permission : Permission) (collection id : String) (request : Request) :
    Outcome (Option Value) :=
  withPlan (Plan.build collection request.select .unrestricted) fun plan => do
    let (result, memo) ← (Pass.one permission plan id).start .empty
    return result.map fun found => found.map (Answer.ofEntity memo plan request.select)

/-- Reads the page of a collection that the request describes. -/
def many (permission : Permission) (collection : String) (request : Request) :
    Outcome (List Value) :=
  withPlan (Plan.build collection request.select request.scope) fun plan => do
    let (result, memo) ← (Pass.many permission plan none []).start .empty
    return result.map fun page => page.map (Answer.ofEntity memo plan request.select)

/-- Loads one whole document, whoever may see it. -/
def load (collection id : String) : Outcome (Option Entity) :=
  withPlan (Plan.build collection none .unrestricted) fun plan => do
    let (result, _) ← (Pass.one .unrestricted plan id).start .empty
    return result

/-- Loads a whole collection, whoever may see it. -/
def loadAll (collection : String) : Outcome (List Entity) :=
  withPlan (Plan.build collection none .unrestricted) fun plan => do
    let (result, _) ← (Pass.many .unrestricted plan none []).start .empty
    return result

end LinkedDocs.Query
