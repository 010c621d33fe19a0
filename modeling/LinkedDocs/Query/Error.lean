import LinkedDocs.Store.Error

/-!
# Errors of a query

A query fails because its selector, filter or shape is malformed, because the caller may not see
what it asks for, or because the store failed. The cause of a malformed request is a `RequestFault`;
its wording, the message of an error and its status class are functions of the cause.
-/

namespace LinkedDocs

/-- What a selector should have gone on with. -/
inductive Expected where
  | identifier
  | closingBracket
  | commaOrClosingParenthesis
  /-- The end of the selector. -/
  | nothing
  deriving DecidableEq

/-- The text of a disappointed expectation. -/
def Expected.text : Expected → String
  | .identifier => "expected identifier"
  | .closingBracket => "expected ']'"
  | .commaOrClosingParenthesis => "expected ',' or ')'"
  | .nothing => "unexpected trailing input"

/-- Why a request is malformed. -/
inductive RequestFault where
  /-- A selector string breaks off at a byte offset. -/
  | unexpected (expected : Expected) (offset : Nat)
  | selectorShape
  | noTarget
  | twoTargets
  | targetNotString
  | queryNotObject
  | invalidJson
  | whereNotObject
  | unknownOperator
  | orderByShape
  | orderByEntry
  | emptySortKey
  /-- `limit` or `skip` is not a count. -/
  | notCount (name : String)
  /-- Two references to one target ask for different filters, orders or pages. -/
  | conflictingScopes (target : String)
  | badPattern (fault : PatternFault)
  deriving DecidableEq

/-- The text of a fault. -/
def RequestFault.reason : RequestFault → String
  | .unexpected expected offset => expected.text ++ " at offset " ++ toString offset
  | .selectorShape => "selector must be a string, array or object"
  | .noTarget => "no 'ref' or 'many_ref' specified in nested object"
  | .twoTargets => "'ref' and 'many_ref' are mutually exclusive"
  | .targetNotString => "reference target must be a string"
  | .queryNotObject => "query must be an object"
  | .invalidJson => "invalid JSON"
  | .whereNotObject => "where must be an object"
  | .unknownOperator => "unsupported where operator, expected \x7b\"in\": [...]\x7d"
  | .orderByShape => "orderBy must be a string or a list of strings"
  | .orderByEntry => "orderBy entries must be strings"
  | .emptySortKey => "empty orderBy field"
  | .notCount name => name ++ " must be a non-negative integer"
  | .conflictingScopes target => "conflicting where/orderBy/limit/skip for @[" ++ target ++ "]"
  | .badPattern fault => fault.reason

/-- Why a query failed. -/
inductive QueryError where
  /-- A fragment of the request is malformed. -/
  | badSelector (fragment : String) (fault : RequestFault)
  /-- The caller may not see the document; `*` stands for all of them. -/
  | forbidden (collection id : String)
  | storeUnavailable (reason : String)
  | store (error : StoreError)
  deriving DecidableEq

namespace QueryError

/-- The text of an error. -/
def message : QueryError → String
  | .badSelector fragment fault => "Bad selector " ++ Text.quoted fragment ++ ": " ++ fault.reason
  | .forbidden collection id => "Forbidden: " ++ collection ++ "/" ++ id
  | .storeUnavailable reason => "Store unavailable: " ++ reason
  | .store error => "Store error: " ++ error.message

/-- The status class of an error. -/
def status : QueryError → Nat
  | .badSelector .. => 400
  | .forbidden .. => 403
  | .storeUnavailable _ => 503
  | .store _ => 500

/-- What a failure of the store means for a query: a pattern is part of the request. -/
def ofStore : StoreError → QueryError
  | .unavailable reason => .storeUnavailable reason
  | .invalidPattern pattern fault => .badSelector pattern (.badPattern fault)
  | error => .store error

end QueryError

end LinkedDocs
