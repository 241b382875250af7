import SchemaQuery.Filter.Predicate
import SchemaQuery.Json.Decode

/-!
# JSON forms of conditions and trees
-/

namespace SchemaQuery

/-- A condition as a record of column, operator and operand. -/
def Condition.toJson (c : Condition) : Json :=
  .obj [("field", .str c.field), ("op", .str c.op.sql), ("value", c.operand)]

/-- Reads a condition. -/
def Condition.ofDocument? (d : Document) : Option Condition := do
  match ← d.fields? [["field"], ["op"], ["value"]] with
  | [field, op, value] =>
    let field ← Document.required? Document.asString? field
    let op ← Document.required? Document.asCase? op
    let op ← Comparison.ofSql? op
    let operand ← Document.required? Document.toJson? value
    return { field, op, operand }
  | _ => none

mutual

/-- A tree as an object that names the kind of its root. -/
def Predicate.toJson : Predicate → Json
  | .leaf condition => .obj [("leaf", condition.toJson)]
  | .and children => .obj [("and", .arr (treesToJson children))]
  | .or children => .obj [("or", .arr (treesToJson children))]

/-- Trees as JSON. -/
def treesToJson : List Predicate → List Json
  | [] => []
  | child :: rest => child.toJson :: treesToJson rest

end

mutual

/-- Reads a tree. -/
def Predicate.ofDocument? : Document → Option Predicate
  | .obj [(some "leaf", d)] => (Condition.ofDocument? d).map .leaf
  | .obj [(some "and", .arr items)] => (treesOfDocuments? items).map .and
  | .obj [(some "or", .arr items)] => (treesOfDocuments? items).map .or
  | _ => none

/-- Reads trees. -/
def treesOfDocuments? : List Document → Option (List Predicate)
  | [] => some []
  | d :: rest =>
    match Predicate.ofDocument? d, treesOfDocuments? rest with
    | some tree, some trees => some (tree :: trees)
    | _, _ => none

end

end SchemaQuery
