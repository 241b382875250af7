import SchemaQuery.Json.Printer
import SchemaQuery.Sql.Fragment

/-!
# Conditions

A condition compares one column with an operand.
-/

namespace SchemaQuery

/-- What a condition asks of a column. -/
inductive Comparison where
  | equal
  | notEqual
  | greater
  | atLeast
  | less
  | atMost
  | like
  | oneOf
  | isNull
  | isNotNull
  deriving DecidableEq

namespace Comparison

/-- The operator in SQL. -/
def sql : Comparison → String
  | equal => "="
  | notEqual => "<>"
  | greater => ">"
  | atLeast => ">="
  | less => "<"
  | atMost => "<="
  | like => "like"
  | oneOf => "in"
  | isNull => "is null"
  | isNotNull => "is not null"

/-- Every comparison. -/
def all : List Comparison :=
  [equal, notEqual, greater, atLeast, less, atMost, like, oneOf, isNull, isNotNull]

/-- The comparison of an operator in SQL. -/
def ofSql? (text : String) : Option Comparison :=
  all.find? fun op => op.sql = text

/-- The operators of a filter object, in the order in which their conditions are made. -/
def tags : List (String × Comparison) :=
  [("$gt", greater), ("$gte", atLeast), ("$lt", less), ("$lte", atMost), ("$like", like),
    ("$ne", notEqual), ("$in", oneOf)]

/-- The comparison of an operator of a filter object. -/
def ofTag? (tag : String) : Option Comparison :=
  (tags.find? fun entry => entry.1 = tag).map Prod.snd

/-- Whether the comparison takes no operand. -/
def isNullTest : Comparison → Bool
  | isNull | isNotNull => true
  | _ => false

end Comparison

/-- A column, a comparison and its operand. -/
structure Condition where
  field : String
  op : Comparison
  operand : Json

namespace Condition

/-- The condition that a column equals a value. -/
def equal (field : String) (value : Json) : Condition :=
  ⟨field, .equal, value⟩

/-- The condition that a column equals one of some values. -/
def oneOf (field : String) (values : List Json) : Condition :=
  ⟨field, .oneOf, .arr values⟩

/-- The condition that a column is null. -/
def isNull (field : String) : Condition :=
  ⟨field, .isNull, .null⟩

/-- The condition that a column is not null. -/
def isNotNull (field : String) : Condition :=
  ⟨field, .isNotNull, .null⟩

/-- The condition for a reader; a null test shows no operand. -/
def toText (c : Condition) : String :=
  if c.op.isNullTest then c.field ++ " " ++ c.op.sql
  else c.field ++ " " ++ c.op.sql ++ " " ++ c.operand.compact

/-- The condition in SQL. No value equals one of none, which SQL says without a column. -/
def sql (c : Condition) : Fragment :=
  let column := Sql.quoteName c.field
  match c.op with
  | .isNull | .isNotNull => .ofText (column ++ " " ++ c.op.sql)
  | .oneOf =>
    match c.operand.asArray?.getD [] with
    | [] => .ofText "1 = 0"
    | values => ⟨column ++ " in (" ++ Sql.placeholders values ++ ")", values⟩
  | _ => ⟨column ++ " " ++ c.op.sql ++ " ?", [c.operand]⟩

end Condition

end SchemaQuery
