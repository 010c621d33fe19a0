import LinkedDocs.Text.Quoted

/-!
# Failures of a document store

A store call fails because the store cannot be reached, because a document is not one, because an id
is taken, or because a pattern cannot be used. Only the first may pass by itself. The wording of all
of them is in `StoreError.message`.
-/

namespace LinkedDocs

/-- Why a value is not a document. -/
inductive DocumentFault where
  | notObject (kind : String)
  | missingId
  | badId (kind : String)
  /-- A replacement carries another id than the document that it replaces. -/
  | otherId (replacement id : String)
  /-- A store refuses a document for a reason of its own. -/
  | refused (reason : String)
  deriving DecidableEq

/-- The text of a fault in a document. -/
def DocumentFault.reason : DocumentFault → String
  | .notObject kind => "document must be an object, got " ++ kind
  | .missingId => "Document needs to contain the 'id' attribute."
  | .badId kind => "document id must be a string or number, got " ++ kind
  | .otherId replacement id => "replacement id " ++ replacement ++ " does not match " ++ id
  | .refused reason => reason

/-- Why a pattern cannot be used. -/
inductive PatternFault where
  | trailingEscape
  | unclosedClass
  | unclosedAlternation
  /-- A range in a character class whose ends are in the wrong order. -/
  | reversedRange
  /-- Too many levels of alternations and classes. -/
  | tooDeep
  /-- Too many parts. -/
  | tooLarge
  /-- A store refuses a pattern for a reason of its own. -/
  | refused (reason : String)
  deriving DecidableEq

/-- The text of a fault in a pattern. -/
def PatternFault.reason : PatternFault → String
  | .trailingEscape => "trailing escape"
  | .unclosedClass => "unclosed character class"
  | .unclosedAlternation => "unclosed alternation"
  | .reversedRange => "reversed character range"
  | .tooDeep => "nested too deeply"
  | .tooLarge => "too large"
  | .refused reason => reason

/-- Why a store call failed. -/
inductive StoreError where
  | unavailable (reason : String)
  | invalidDocument (fault : DocumentFault)
  | duplicateId (collection id : String)
  | invalidPattern (pattern : String) (fault : PatternFault)
  deriving DecidableEq

namespace StoreError

/-- The text of an error. -/
def message : StoreError → String
  | .unavailable reason => "Store unavailable: " ++ reason
  | .invalidDocument fault => "Invalid document: " ++ fault.reason
  | .duplicateId collection id => "Duplicate id " ++ id ++ " in collection " ++ collection
  | .invalidPattern pattern fault =>
    "Invalid pattern " ++ Text.quoted pattern ++ ": " ++ fault.reason

/-- Whether the same call may succeed later. -/
def isTransient : StoreError → Bool
  | .unavailable _ => true
  | _ => false

end StoreError

end LinkedDocs
