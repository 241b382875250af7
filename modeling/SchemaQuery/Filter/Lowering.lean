import SchemaQuery.Filter.Clause
import SchemaQuery.Filter.Predicate

/-!
# From trees to clauses

A node whose connective is the one of the row it stands in is spread out in the row; a node with the
other connective becomes a group. So no clause ever depends on which connective binds tighter.
-/

namespace SchemaQuery

mutual

/-- The steps that build a tree into a row joined by `combine`. -/
def Predicate.steps (combine : Combine) : Predicate → List Item
  | .leaf condition => [.condition combine condition]
  | .and children =>
    match combine with
    | .and => stepsOf .and children
    | .or => [.group .or (stepsOf .and children)]
  | .or children =>
    match combine with
    | .or => stepsOf .or children
    | .and => [.group .and (stepsOf .or children)]

/-- The steps of trees, one after another. -/
def stepsOf (combine : Combine) : List Predicate → List Item
  | [] => []
  | child :: rest => child.steps combine ++ stepsOf combine rest

end

namespace Clause

/-- The clause of a tree in a row joined by `combine`. -/
def lower (combine : Combine) (tree : Predicate) : Clause :=
  Clause.pushAll .empty (tree.steps combine)

/-- The clause of a compiled filter. -/
def ofPredicate (tree : Option Predicate) : Clause :=
  match tree with
  | none => .empty
  | some tree => lower .and tree

end Clause

end SchemaQuery
