import SchemaQuery.Dictionary
import SchemaQuery.Storage.Table

/-!
# The store

Tables by name. Every operation names a table that is there, or fails and changes nothing.
-/

namespace SchemaQuery

/-- Tables by name. -/
structure Store where
  tables : Dictionary Table

/-- A range of rows, and how many there are in all. -/
structure Page where
  rows : List Row
  total : Nat

namespace Store

/-- A store with empty tables. -/
def ofTables (names : List String) : Store :=
  ⟨.ofList (names.map fun name => (name, .empty))⟩

/-- Adds an empty table, unless one of that name is there. -/
def createTable (s : Store) (name : String) : Store :=
  if s.tables.contains name then s else ⟨s.tables.insert name .empty⟩

/-- Empties every table and forgets its primary keys. -/
def truncate (s : Store) : Store :=
  ⟨s.tables.map fun _ _ => .empty⟩

/-- The table of a name. -/
def table (s : Store) (name : String) : Except StoreError Table :=
  match s.tables.get? name with
  | some table => .ok table
  | none => .error (.unknownTable name)

/-- The store with a table in a new state. -/
def withTable (s : Store) (name : String) (table : Table) : Store :=
  ⟨s.tables.insert name table⟩

/-- The rows of a selection. -/
def select (s : Store) (selection : Selection) : Except StoreError (List Row) :=
  (s.table selection.table).map (·.select selection)

/-- The rows from `start` up to and including `stop` of a selection, whatever its own bounds are. -/
def selectRange (s : Store) (selection : Selection) (start stop : Nat) : Except StoreError Page :=
  (s.table selection.table).map fun table =>
    let rows := table.matching selection.clause selection.order
    let range :=
      if stop < start then []
      else (rows.drop start).take (min (stop - start + 1) Whole.greatest)
    ⟨range.map (Table.project selection.columns), rows.length⟩

/-- The number of rows that a clause holds of. -/
def count (s : Store) (table : String) (clause : Clause) : Except StoreError Nat :=
  (s.table table).map (·.count clause)

/-- Adds a row, and gives it as stored. -/
def insert (s : Store) (name : String) (row : Row) : Except StoreError (Row × Store) := do
  let table ← s.table name
  let (row, table) ← table.insert row
  return (row, s.withTable name table)

/-- Gives new values to rows, and counts them. -/
def patch (s : Store) (name : String) (clause : Clause) (patch : Row) (limit : Option Nat) :
    Except StoreError (Nat × Store) := do
  let table ← s.table name
  let (changed, table) := table.patch clause patch limit
  return (changed, s.withTable name table)

/-- Drops rows, and counts them. -/
def delete (s : Store) (name : String) (clause : Clause) : Except StoreError (Nat × Store) := do
  let table ← s.table name
  let (dropped, table) := table.delete clause
  return (dropped, s.withTable name table)

end Store

end SchemaQuery
