import SchemaQuery.Filter.Condition

/-!
# Predicate trees

The compiled form of a filter: conditions joined by conjunctions and disjunctions.
-/

namespace SchemaQuery

/-- A condition, a conjunction or a disjunction. -/
inductive Predicate where
  | leaf (condition : Condition)
  | and (children : List Predicate)
  | or (children : List Predicate)

mutual

/-- The conditions of a tree from left to right. -/
def Predicate.leaves : Predicate → List Condition
  | .leaf condition => [condition]
  | .and children => leavesOf children
  | .or children => leavesOf children

/-- The conditions of trees from left to right. -/
def leavesOf : List Predicate → List Condition
  | [] => []
  | child :: rest => child.leaves ++ leavesOf rest

end

/-- The number of conditions in a tree. -/
def Predicate.leafCount (p : Predicate) : Nat :=
  p.leaves.length

mutual

/-- The tree for a reader, every node in brackets. -/
def Predicate.toText : Predicate → String
  | .leaf condition => condition.toText
  | .and children => "(" ++ Sql.join " and " (textsOf children) ++ ")"
  | .or children => "(" ++ Sql.join " or " (textsOf children) ++ ")"

/-- The texts of trees. -/
def textsOf : List Predicate → List String
  | [] => []
  | child :: rest => child.toText :: textsOf rest

end

end SchemaQuery
