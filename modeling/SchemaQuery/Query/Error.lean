import SchemaQuery.Filter.Error
import SchemaQuery.Schema.Error
import SchemaQuery.Storage.Table

/-!
# Faults of requests
-/

namespace SchemaQuery

/-- What a request does. -/
inductive RequestKind where
  | select
  | insert
  | update
  | delete
  | count
  deriving DecidableEq

/-- The name of a kind. -/
def RequestKind.name : RequestKind → String
  | select => "select"
  | insert => "insert"
  | update => "update"
  | delete => "delete"
  | count => "count"

/-- A refinement that only reading requests take. -/
inductive Refinement where
  | select
  | populate
  | paginate
  deriving DecidableEq

/-- The name of a refinement. -/
def Refinement.name : Refinement → String
  | select => "select"
  | populate => "populate"
  | paginate => "paginate"

/-- Why a request makes no sense. -/
inductive RequestFault where
  | notAllowed (refinement : Refinement) (kind : RequestKind)
  | sortParameter
  | filterNotAnObject (value : Json)
  | documentNotAnObject (value : Json)
  | updateNotAnObject (value : Json)
  | saveWithoutId
  | emptyUpdate
  /-- A populate expression that breaks its grammar, and where. -/
  | populateExpression (text : String) (offset : Nat)

/-- Why, for a reader. -/
def RequestFault.reason : RequestFault → String
  | notAllowed refinement kind =>
    "Invalid '" ++ refinement.name ++ "' for operation " ++ kind.name
  | sortParameter => "Invalid parameter of sort"
  | filterNotAnObject value => "Filter must be an object, got " ++ value.compact
  | documentNotAnObject value => "Document must be an object, got " ++ value.compact
  | updateNotAnObject value => "Update document must be an object, got " ++ value.compact
  | saveWithoutId => "Cannot save a row without id"
  | emptyUpdate => "Empty update"
  | populateExpression text offset =>
    "Invalid populate expression '" ++ text ++ "' at offset " ++ toString offset

/-- Why a request fails. -/
inductive QueryError where
  | invalid (fault : RequestFault)
  | filter (fault : FilterError)
  | unknownRelation (model relation : String)
  | schema (fault : SchemaError)
  | storage (fault : StoreError)

namespace QueryError

/-- The name of the fault. -/
def code : QueryError → String
  | invalid _ => "INVALID_OPERATION"
  | filter fault => fault.code
  | unknownRelation .. => "UNKNOWN_RELATION"
  | schema fault => fault.code
  | storage fault => fault.code

/-- The fault for a reader. -/
def message : QueryError → String
  | invalid fault => "Invalid operation: " ++ fault.reason
  | filter fault => fault.message
  | unknownRelation model relation => "Unknown relation '" ++ relation ++ "' on model '" ++ model ++ "'"
  | schema fault => fault.message
  | storage fault => fault.message

end QueryError

end SchemaQuery
