import QueryPipeline.Json.Mistake
import QueryPipeline.Section
import QueryPipeline.Value.Shown

/-! Why a request fails, with the words for it and the status of the answer. -/

namespace QueryPipeline

/-- What is wrong with one condition of a filter. -/
inductive ConditionFlaw where
  | notObject
  | incomplete
  | notText
deriving DecidableEq, Repr

/-- The words for a flaw of a condition. -/
def ConditionFlaw.words : ConditionFlaw → String
  | .notObject => "Condition must be an object"
  | .incomplete => "Condition must have a field, an operator, and a value"
  | .notText => "Condition field and operator must be strings"

/-- The kinds of flaws that answers tell apart. -/
inductive FlawKind where
  | general
  | unreadable
  | disabled
  | unresolved
deriving DecidableEq, Repr

/-- What is wrong with what the client sent. -/
inductive Flaw where
  | unreadableText (text : List Char) (mistake : Json.Mistake)
  | textNotObject (v : Value)
  | queryNotObject
  | unknownOperations (names : List String)
  | sectionDisabled (part : Section) (collection : String)
  | conditionsNotList (conditions : Value)
  | condition (flaw : ConditionFlaw) (given : Value)
  | unsupportedOperator (operator field : String)
  | sortNotObject
  | sortObjectNotObject
  | sortDirection (direction : Value) (field : String)
  | sortFieldNotText
  | notInteger (key : String)
  | collectionName (name : Value)
  | documentNotObject
  | documentsNotList
  | documentsEmpty
  | identifiersMissing
  | queryNameMissing
  | queryCollectionMissing
  | pipelineNotList
  | stageNotObject
  | descriptionNotText
  | namedQueryNotObject
  | executionNotObject
  | parametersNotObject
  | unresolvedPlaceholder (name : String)
  | described (kind : FlawKind) (text : String)

namespace Flaw

/-- The kind of a flaw. -/
def kind : Flaw → FlawKind
  | .unreadableText .. | .textNotObject _ => .unreadable
  | .sectionDisabled .. => .disabled
  | .unresolvedPlaceholder _ => .unresolved
  | .described kind _ => kind
  | _ => .general

/-- The name of a value's kind. -/
def kindName : Value → String
  | .null => "NoneType"
  | .bool _ => "bool"
  | .int _ => "int"
  | .float _ => "float"
  | .text _ => "str"
  | .list _ => "list"
  | .object _ => "dict"
  | .time _ => "datetime"

/-- The words for a flaw. -/
def words : Flaw → String
  | .unreadableText text mistake => "Query object is not valid JSON: " ++ mistake.message text
  | .textNotObject v => "Query object must be an object, " ++ kindName v ++ " given"
  | .queryNotObject => "Query Object must be either an object, or null"
  | .unknownOperations names =>
    "Unknown Query Object operations: " ++ String.intercalate ", " names
  | .sectionDisabled part collection =>
    "Query handler \"" ++ part.name ++ "\" is disabled for \"" ++ collection ++ "\""
  | .conditionsNotList conditions => "Filter conditions must be a list: " ++ conditions.shown
  | .condition flaw given => flaw.words ++ ": " ++ given.shown
  | .unsupportedOperator operator field =>
    "Unsupported operator \"" ++ operator ++ "\" found in filter for field `" ++ field ++ "`"
  | .sortNotObject => "sort must be an object"
  | .sortObjectNotObject => "sortObject must be an object"
  | .sortDirection direction field =>
    "sortObject direction must be one of: 1, -1, \"asc\", \"desc\"; " ++ direction.shown ++
      " provided for `" ++ field ++ "`"
  | .sortFieldNotText => "orderByField must be a string"
  | .notInteger key => key ++ " must be either an integer, or null"
  | .collectionName name => "Invalid collection name: " ++ name.shown
  | .documentNotObject => "Document must be an object"
  | .documentsNotList => "Request body must be an array of documents"
  | .documentsEmpty => "Request body array cannot be empty"
  | .identifiersMissing => "Request body must contain a non-empty array \"ids\""
  | .queryNameMissing => "Named query must have a name"
  | .queryCollectionMissing => "Named query must have a collection name"
  | .pipelineNotList => "Named query pipeline must be a non-empty list of stages"
  | .stageNotObject => "Named query pipeline stages must be objects"
  | .descriptionNotText => "Named query description must be a string"
  | .namedQueryNotObject => "Named query must be an object"
  | .executionNotObject => "Execution request must be an object"
  | .parametersNotObject => "\"params\" and \"options\" must be objects"
  | .unresolvedPlaceholder name =>
    "No parameter provided for placeholder \"\x7b\x7b" ++ name ++ "\x7d\x7d\""
  | .described _ text => text

end Flaw

/-- What a request refers to and nobody has. -/
inductive Missing where
  | namedQuery (name : Value)
  | document (collection : String) (id : Value)
  | described (what : String) (key : Value)

namespace Missing

/-- The kind of thing that is missing. -/
def what : Missing → String
  | .namedQuery _ => "Query"
  | .document collection _ => "Document in \"" ++ collection ++ "\""
  | .described what _ => what

/-- What the request called it. -/
def key : Missing → Value
  | .namedQuery name => name
  | .document _ id => id
  | .described _ key => key

end Missing

/-- A failure of the document store: the operation, its collection and the store's own words. -/
structure StoreFailure where
  operation : String
  collection : String
  cause : String
deriving DecidableEq, Repr

/-- What the code around the library got wrong, and what a query that broke off leaves undone. -/
inductive Misuse where
  | notKey
  | unknownSettings (names : List String)
  | ledgerNotFields
  | capNotNumber
  | capNotPositive
  | tooManyDigits
  | ledgerFilterUnread
  | sectionUnread (part : Section)
  | notMapping
  | notDocument
  | notList
  | noSuchQuery
deriving DecidableEq, Repr

/-- Why something failed. -/
inductive Fault where
  | invalid (flaw : Flaw)
  | notFound (missing : Missing)
  | store (failure : StoreFailure)
  | invalidSettings (owner : String) (names : List String)
  | alreadyQueried
  | refused (reason : String)
  | misuse (cause : Misuse)
  | described (text : String)

/-- The value that the words for a flaw show, if they show one. -/
def Flaw.shows? : Flaw → Option Value
  | .conditionsNotList v | .condition _ v | .sortDirection v _ | .collectionName v => some v
  | _ => none

namespace Fault

/-- The fault for a flaw. When its words cannot be written, that is the fault. -/
def ofFlaw (flaw : Flaw) : Fault :=
  if flaw.shows?.all Value.hasText then .invalid flaw else .misuse .tooManyDigits

/-- The fault for what is missing. When its words cannot be written, that is the fault. -/
def ofMissing (missing : Missing) : Fault :=
  if missing.key.hasText then .notFound missing else .misuse .tooManyDigits

/-- The words for a misuse. -/
def misuseWords : Misuse → String
  | .notKey => "A collection cannot be a key"
  | .unknownSettings names => "Unknown settings: " ++ String.intercalate ", " names
  | .ledgerNotFields => "The ledger's fields must be named by an object"
  | .capNotNumber => "The greatest number of documents must be a number"
  | .capNotPositive => "The greatest number of documents must be positive"
  | .tooManyDigits => "Too many digits"
  | .ledgerFilterUnread => "The ledger depends on a filter that was not read"
  | .sectionUnread part => "The section was not read: " ++ part.name
  | .notMapping => "Settings must be given by an object"
  | .notDocument => "A document must be an object"
  | .notList => "Documents must be given in a list"
  | .noSuchQuery => "There is no such query"

/-- The message of a fault. -/
def message : Fault → String
  | .invalid flaw => "Query object error: " ++ flaw.words
  | .notFound missing => missing.what ++ " not found: " ++ missing.key.shown
  | .store failure =>
    "Document store failed to " ++ failure.operation ++ " on \"" ++ failure.collection ++ "\": " ++
      failure.cause
  | .invalidSettings owner names =>
    "Invalid settings were provided for " ++ owner ++ ": " ++ String.intercalate "," names
  | .alreadyQueried =>
    "DocRunningBalance.input() was already called. " ++
      "Wrap the handler into Reusable(), or copy() it first"
  | .refused reason => reason
  | .misuse cause => misuseWords cause
  | .described text => text

/-- The status of the answer to a request that failed: 400 for what the client sent, 404 for what is
not there, 500 for everything else. -/
def status : Fault → Nat
  | .invalid _ => 400
  | .notFound _ => 404
  | _ => 500

end Fault

end QueryPipeline
