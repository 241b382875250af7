import SchemaQuery.Filter.Clause
import SchemaQuery.Json.Decode

/-!
# Statements

What a request asks of the storage, and its form in SQL.
-/

namespace SchemaQuery

/-- The direction of an order. -/
inductive Direction where
  | asc
  | desc
  deriving DecidableEq

/-- The direction in SQL. -/
def Direction.sql : Direction → String
  | asc => "asc"
  | desc => "desc"

/-- The direction of a word of SQL. -/
def Direction.ofSql? (text : String) : Option Direction :=
  [asc, desc].find? fun direction => direction.sql = text

/-- A column to order by. -/
structure OrderBy where
  column : String
  direction : Direction
  deriving DecidableEq

namespace OrderBy

/-- The order in SQL. -/
def sql (o : OrderBy) : String :=
  Sql.quoteName o.column ++ " " ++ o.direction.sql

/-- An order as JSON. -/
def toJson (o : OrderBy) : Json :=
  .obj [("column", .str o.column), ("direction", .str o.direction.sql)]

/-- Reads an order. -/
def ofDocument? (d : Document) : Option OrderBy := do
  match ← d.fields? [["column"], ["direction"]] with
  | [column, direction] =>
    let column ← Document.required? Document.asString? column
    let direction ← Document.required? Document.asCase? direction
    let direction ← Direction.ofSql? direction
    return { column, direction }
  | _ => none

end OrderBy

/-- Which rows of a table to read, and which columns of them. -/
structure Selection where
  table : String
  clause : Clause
  /-- The columns to read; every column if there are none. -/
  columns : List String
  order : List OrderBy
  limit : Option Nat
  offset : Option Nat

namespace Selection

/-- All rows of a table that a clause holds of, with every column. -/
def ofClause (table : String) (clause : Clause) : Selection :=
  { table, clause, columns := [], order := [], limit := none, offset := none }

end Selection

/-- A statement for the storage. -/
inductive Statement where
  | select (selection : Selection)
  | count (table : String) (clause : Clause)
  | insert (table : String) (row : Row)
  | update (table : String) (clause : Clause) (patch : Row) (limit : Option Nat)
  | delete (table : String) (clause : Clause)

namespace Sql

/-- A clause behind `where`; nothing for the clause that asks nothing. -/
def whereClause (clause : Clause) : Fragment :=
  if clause.isEmpty then .ofText "" else .ofText " where " ++ clause.sql

/-- A number behind a word, if there is one. -/
def bound (word : String) (n : Option Nat) : String :=
  match n with
  | none => ""
  | some n => " " ++ word ++ " " ++ toString n

/-- The order of rows, if one is asked for. -/
def orderBy (order : List OrderBy) : String :=
  if order.isEmpty then "" else " order by " ++ join ", " (order.map OrderBy.sql)

/-- The columns to read. -/
def columnList (columns : List String) : String :=
  if columns.isEmpty then "*" else nameList columns

/-- New values for columns. -/
def assignments (patch : Row) : Fragment :=
  ⟨join ", " (patch.names.map fun column => quoteName column ++ " = ?"), patch.values⟩

end Sql

namespace Selection

/-- A selection in SQL. -/
def sql (s : Selection) : Fragment :=
  .ofText ("select " ++ Sql.columnList s.columns ++ " from " ++ Sql.quoteName s.table) ++
    Sql.whereClause s.clause ++
    .ofText (Sql.orderBy s.order ++ Sql.bound "limit" s.limit ++ Sql.bound "offset" s.offset)

end Selection

namespace Statement

/-- A statement in SQL. -/
def sql : Statement → Fragment
  | select selection => selection.sql
  | count table clause =>
    .ofText ("select count(*) from " ++ Sql.quoteName table) ++ Sql.whereClause clause
  | insert table row =>
    ⟨"insert into " ++ Sql.quoteName table ++ " (" ++ Sql.nameList row.names ++ ") values (" ++
      Sql.placeholders row.values ++ ")", row.values⟩
  | update table clause patch limit =>
    .ofText ("update " ++ Sql.quoteName table ++ " set ") ++ Sql.assignments patch ++
      Sql.whereClause clause ++ .ofText (Sql.bound "limit" limit)
  | delete table clause =>
    .ofText ("delete from " ++ Sql.quoteName table) ++ Sql.whereClause clause

end Statement

end SchemaQuery
