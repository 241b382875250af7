/-!
# Faults of filter objects
-/

namespace SchemaQuery

/-- What is wrong with the value of a disjunction. -/
inductive DisjunctionFault where
  | notAnArray
  | noBranches
  | branchNotAnObject
  deriving DecidableEq

/-- What is wrong, for a reader. -/
def DisjunctionFault.reason : DisjunctionFault → String
  | notAnArray => "expected an array of filter objects"
  | noBranches => "at least one branch is required"
  | branchNotAnObject => "every branch must be an object"

/-- Why a filter object is refused. -/
inductive FilterError where
  | invalidDisjunction (key : String) (fault : DisjunctionFault)
  /-- An object inside the filter has no members. -/
  | emptyGroup
  | unknownOperator (field tag : String)
  /-- A list of values holds an array or an object. -/
  | invalidArrayMember (field : String)
  | invalidOperand (field tag : String)
  deriving DecidableEq

namespace FilterError

/-- The name of the fault. -/
def code : FilterError → String
  | invalidDisjunction .. => "INVALID_DISJUNCTION"
  | emptyGroup => "EMPTY_GROUP"
  | unknownOperator .. => "UNKNOWN_OPERATOR"
  | invalidArrayMember _ => "INVALID_ARRAY_MEMBER"
  | invalidOperand .. => "INVALID_OPERAND"

/-- The fault for a reader. -/
def message : FilterError → String
  | invalidDisjunction key fault => "Invalid disjunction '" ++ key ++ "': " ++ fault.reason
  | emptyGroup => "Empty filter group"
  | unknownOperator field tag => "Unknown operator '" ++ tag ++ "' on field '" ++ field ++ "'"
  | invalidArrayMember field => "Invalid member in value list of field '" ++ field ++ "'"
  | invalidOperand field tag => "Invalid operand for '" ++ tag ++ "' on field '" ++ field ++ "'"

end FilterError

end SchemaQuery
