import SchemaQuery.Filter.Error
import SchemaQuery.Filter.Predicate

/-!
# Compiling filter objects

Every member of a filter object must hold. A member whose name begins with `$or` lists alternatives;
any other name is a column, with a value to equal, a list of values, or an object of operators. The
conditions come in the order of the members, those of one column in a fixed order of operators.
-/

namespace SchemaQuery

/-- An object of named values, read as a filter. -/
abbrev Filter := Members

namespace Filter

/-- Whether a member lists alternatives. -/
def isDisjunctionKey (key : String) : Bool :=
  "$or".toList.isPrefixOf key.toList

/-- Whether a name is meant as an operator. -/
def isOperatorKey (key : String) : Bool :=
  key.toList.head? = some '$'

/-- The values of a list, none of which may be an array or an object. -/
def listValues (field : String) (values : List Json) : Except FilterError (List Json) :=
  if values.any Json.isContainer then .error (.invalidArrayMember field) else .ok values

/-- A list of values for a column. In SQL null is in no list, so a list with null asks for it apart. -/
def compileList (field : String) (values : List Json) : Except FilterError Predicate := do
  let values ← listValues field values
  if values.any Json.isNull then
    match values.filter (!·.isNull) with
    | [] => return .leaf (.isNull field)
    | present => return .or [.leaf (.oneOf field present), .leaf (.isNull field)]
  else
    return .leaf (.oneOf field values)

/-- The condition of one operator. -/
def compileOperator (field tag : String) (op : Comparison) (operand : Json) :
    Except FilterError Condition :=
  match op, operand with
  | .notEqual, .null => .ok (.isNotNull field)
  | .oneOf, .arr values => (listValues field values).map (Condition.oneOf field)
  | .oneOf, _ => .error (.invalidOperand field tag)
  | op, operand => .ok ⟨field, op, operand⟩

/-- The conditions of the operators that are present, in the order of a table. -/
def compileTags (field : String) (operators : Members) :
    List (String × Comparison) → Except FilterError (List Predicate)
  | [] => .ok []
  | (tag, op) :: rest =>
    match operators.get? tag with
    | none => compileTags field operators rest
    | some operand => do
      let condition ← compileOperator field tag op operand
      let others ← compileTags field operators rest
      return .leaf condition :: others

/-- An object of operators on a column. -/
def compileOperators (field : String) (operators : Members) : Except FilterError Predicate :=
  match operators.names.find? (fun tag => (Comparison.ofTag? tag).isNone) with
  | some tag => .error (.unknownOperator field tag)
  | none => do
    match ← compileTags field operators Comparison.tags with
    | [leaf] => return leaf
    | leaves => return .and leaves

/-- What a filter asks of a column. -/
def compileField (field : String) : Json → Except FilterError Predicate
  | .null => .ok (.leaf (.isNull field))
  | .arr values => compileList field values
  | .obj members =>
    if (Members.names members).any isOperatorKey then compileOperators field members
    else .ok (.leaf (.equal field (.obj members)))
  | value => .ok (.leaf (.equal field value))

mutual

/-- A filter that has at least one member. A single member is not wrapped. -/
def compileGroup : List (String × Json) → Except FilterError Predicate
  | [] => .error .emptyGroup
  | (key, value) :: rest => do
    let first ← compileEntry key value
    match ← compileEntries rest with
    | [] => return first
    | others => return .and (first :: others)

/-- The members of a filter, one by one. -/
def compileEntries : List (String × Json) → Except FilterError (List Predicate)
  | [] => .ok []
  | (key, value) :: rest => do
    let first ← compileEntry key value
    let others ← compileEntries rest
    return first :: others

/-- One member of a filter. -/
def compileEntry (key : String) : Json → Except FilterError Predicate
  | .arr branches =>
    if isDisjunctionKey key then
      if branches.isEmpty then .error (.invalidDisjunction key .noBranches)
      else (compileBranches key branches).map .or
    else compileField key (.arr branches)
  | value =>
    if isDisjunctionKey key then .error (.invalidDisjunction key .notAnArray)
    else compileField key value

/-- The alternatives of a disjunction. -/
def compileBranches (key : String) : List Json → Except FilterError (List Predicate)
  | [] => .ok []
  | .obj filter :: rest => do
    let first ← compileGroup filter
    let others ← compileBranches key rest
    return first :: others
  | _ :: _ => .error (.invalidDisjunction key .branchNotAnObject)

end

/-- The predicate of a filter; the empty filter has none and holds of every row. -/
def compile : Filter → Except FilterError (Option Predicate)
  | [] => .ok none
  | members => (compileGroup members).map some

end Filter

end SchemaQuery
