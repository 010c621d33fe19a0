import LinkedDocs.Scope

/-!
# Selectors

A selector says what to read of a document: a field, all fields, or something of the documents that
it refers to. A reference to `target` follows the link in the field of that name; a single reference
leads to one document, a many reference to a list with a scope of its own. Below a reference stands
a further selector, or none for the whole document.

The text of a selector is its written form; the scope of a many reference has none there.
-/

namespace LinkedDocs

/-- What to read of a document. -/
inductive Selector where
  /-- Every field. -/
  | wildcard
  | field (name : String)
  /-- A single reference and what to read there; without it the whole document. -/
  | one (target : String) (sub : Option Selector)
  /-- A many reference, what to read of each document, and which documents. -/
  | many (target : String) (sub : Option Selector) (scope : Scope)
  /-- Several selectors for the same document. -/
  | list (items : List Selector)

namespace Selector

instance : Inhabited Selector := ⟨.wildcard⟩

/-- The sign of a reference: `@target`, or `@[target]` for a many reference. -/
def sign (isMany : Bool) (target : String) : String :=
  if isMany then "@[" ++ target ++ "]" else "@" ++ target

mutual

/-- The written form of a selector. -/
def text : Selector → String
  | .wildcard => "*"
  | .field name => name
  | .one target sub => sign false target ++ subText sub
  | .many target sub _ => sign true target ++ subText sub
  | .list items => itemsText items

/-- The written form of what stands below a reference: a list in parentheses, all else after a
point. -/
def subText : Option Selector → String
  | none => ""
  | some (.list items) => "(" ++ itemsText items ++ ")"
  | some sub => "." ++ sub.text

/-- The written form of several selectors. -/
def itemsText : List Selector → String
  | [] => ""
  | [item] => item.text
  | item :: items => item.text ++ ", " ++ itemsText items

end

end Selector

end LinkedDocs
