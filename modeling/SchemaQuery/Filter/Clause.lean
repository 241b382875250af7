import SchemaQuery.Filter.Condition
import SchemaQuery.Filter.Like
import SchemaQuery.Filter.ValueOrder

/-!
# Where clauses

A clause is a row of conditions and bracketed groups, each joined to what precedes it by `and` or `or`;
`and` binds tighter. A clause is printed as SQL and decided on a row.
-/

namespace SchemaQuery

/-- How an item joins what precedes it. -/
inductive Combine where
  | and
  | or
  deriving DecidableEq

/-- The connective in SQL. -/
def Combine.sql : Combine → String
  | and => "and"
  | or => "or"

/-- A step in building a clause: a condition, or a bracketed row of steps. -/
inductive Item where
  | condition (combine : Combine) (condition : Condition)
  | group (combine : Combine) (items : List Item)

/-- How an item joins what precedes it. -/
def Item.combine : Item → Combine
  | .condition combine _ => combine
  | .group combine _ => combine

/-- A row of a table: its columns with their values. A column that is missing reads as null. -/
abbrev Row := Members

namespace Condition

/-- Whether the condition holds of a row. Null satisfies only the null test. -/
def holds (c : Condition) (row : Row) : Bool :=
  let actual := row.getD c.field
  match c.op with
  | .isNull => actual.isNull
  | .isNotNull => !actual.isNull
  | op =>
    if actual.isNull then false
    else
      match op with
      | .equal => actual.equals c.operand
      | .notEqual => !c.operand.isNull && !actual.equals c.operand
      | .greater => actual.compareValues? c.operand == some .gt
      | .atLeast =>
        actual.compareValues? c.operand == some .gt || actual.compareValues? c.operand == some .eq
      | .less => actual.compareValues? c.operand == some .lt
      | .atMost =>
        actual.compareValues? c.operand == some .lt || actual.compareValues? c.operand == some .eq
      | .like =>
        match actual, c.operand with
        | .str text, .str pattern => likeMatches text pattern
        | _, _ => false
      | .oneOf =>
        match c.operand with
        | .arr values => values.any (actual.equals ·)
        | _ => false
      | .isNull | .isNotNull => false

end Condition

mutual

/-- Whether an item holds of a row. -/
def Item.holds (row : Row) : Item → Bool
  | .condition _ condition => condition.holds row
  | .group _ items => anyRunHolds row items false true true

/-- Whether some run of items holds, where `or` begins a new run. `done` says that an earlier run holds,
`run` that the items of this run so far do; how the first item joins is of no account. -/
def anyRunHolds (row : Row) : List Item → (done run first : Bool) → Bool
  | [], done, run, _ => done || run
  | item :: rest, done, run, first =>
    if !first && item.combine == .or then anyRunHolds row rest (done || run) (item.holds row) false
    else anyRunHolds row rest done (run && item.holds row) false

end

mutual

/-- An item in SQL, without its connective. -/
def Item.sql : Item → Fragment
  | .condition _ condition => condition.sql
  | .group _ items => .ofText "(" ++ sqlOfItems items ++ .ofText ")"

/-- Items in SQL; the first shows no connective. -/
def sqlOfItems : List Item → Fragment
  | [] => .ofText ""
  | item :: rest => item.sql ++ sqlOfRest rest

/-- Items behind others in SQL. -/
def sqlOfRest : List Item → Fragment
  | [] => .ofText ""
  | item :: rest => .ofText (" " ++ item.combine.sql ++ " ") ++ item.sql ++ sqlOfRest rest

end

/-- A where clause. -/
structure Clause where
  items : List Item

namespace Clause

/-- The clause that holds of every row. -/
def empty : Clause :=
  ⟨[]⟩

instance : Inhabited Clause := ⟨empty⟩

/-- Whether the clause asks nothing. -/
def isEmpty (c : Clause) : Bool :=
  c.items.isEmpty

/-- Adds a condition. -/
def pushCondition (c : Clause) (combine : Combine) (condition : Condition) : Clause :=
  ⟨c.items ++ [.condition combine condition]⟩

/-- Adds a bracketed clause; an empty one is left out. -/
def pushGroup (c : Clause) (combine : Combine) (group : Clause) : Clause :=
  if group.isEmpty then c else ⟨c.items ++ [.group combine group.items]⟩

/-- Adds a condition that must hold as well. -/
def andWhere (c : Clause) (condition : Condition) : Clause :=
  c.pushCondition .and condition

/-- Whether the clause holds of a row. -/
def holds (c : Clause) (row : Row) : Bool :=
  anyRunHolds row c.items false true true

/-- The clause in SQL, without `where`. -/
def sql (c : Clause) : Fragment :=
  sqlOfItems c.items

end Clause

mutual

/-- Adds what a step says to a clause. -/
def Clause.push (clause : Clause) : Item → Clause
  | .condition combine condition => clause.pushCondition combine condition
  | .group combine items => clause.pushGroup combine (Clause.pushAll .empty items)

/-- Adds what steps say to a clause, in order. -/
def Clause.pushAll (clause : Clause) : List Item → Clause
  | [] => clause
  | item :: rest => (clause.push item).pushAll rest

end

end SchemaQuery
