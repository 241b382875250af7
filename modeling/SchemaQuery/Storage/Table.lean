import SchemaQuery.Schema.Property
import SchemaQuery.Storage.Statement

/-!
# Tables

A table keeps its rows in the order in which they came. Every row has a number as its primary key; a row that
brings none gets one above all that the table has given or seen.
-/

namespace SchemaQuery

/-- Why the storage refuses a statement. -/
inductive StoreError where
  | unknownTable (table : String)
  | invalidPrimaryKey (value : Json)
  | duplicatePrimaryKey (id : Nat)

namespace StoreError

/-- The name of the fault. -/
def code : StoreError → String
  | unknownTable _ => "UNKNOWN_TABLE"
  | invalidPrimaryKey _ | duplicatePrimaryKey _ => "EXECUTION_FAILED"

/-- The fault for a reader. -/
def message : StoreError → String
  | unknownTable table => "Unknown table: " ++ table
  | invalidPrimaryKey value => "Execution failed: Invalid primary key: " ++ value.compact
  | duplicatePrimaryKey id => "Execution failed: Duplicate primary key: " ++ toString id

end StoreError

/-- Rows in the order in which they came, and the greatest primary key so far. -/
structure Table where
  rows : List Row
  lastId : Nat

namespace Table

/-- The table without rows. -/
def empty : Table :=
  ⟨[], 0⟩

instance : Inhabited Table := ⟨empty⟩

/-- Whether a row with a primary key is present. -/
def hasId (t : Table) (id : Json) : Bool :=
  t.rows.any fun row => (row.get? primaryKey).any (·.same id)

/-- The primary key of a new row: the one it brings, or the next one. The counter has no end here: one of 64 bits
goes along with it until a row without a key is added when `lastId` is `Whole.greatest`. -/
def newId (t : Table) (row : Row) : Except StoreError Nat :=
  match row.getD primaryKey with
  | .null => .ok (t.lastId + 1)
  | value =>
    match value.asNat? with
    | none => .error (.invalidPrimaryKey value)
    | some id => if t.hasId value then .error (.duplicatePrimaryKey id) else .ok id

/-- A row with its primary key in front. -/
def stored (id : Nat) (row : Row) : Row :=
  (primaryKey, .ofNat id) :: row.filter fun entry => entry.1 ≠ primaryKey

/-- Adds a row, and gives it as stored. -/
def insert (t : Table) (row : Row) : Except StoreError (Row × Table) :=
  match t.newId row with
  | .error fault => .error fault
  | .ok id =>
    let row := stored id row
    .ok (row, ⟨t.rows ++ [row], max t.lastId id⟩)

/-- The order of two values of a column: null comes first, values that cannot be compared are equal. -/
def compareColumn (a b : Json) : Ordering :=
  match a.isNull, b.isNull with
  | true, true => .eq
  | true, false => .lt
  | false, true => .gt
  | false, false => (a.compareValues? b).getD .eq

/-- The order of two rows: the first column that tells them apart decides. -/
def compareRows : List OrderBy → Row → Row → Ordering
  | [], _, _ => .eq
  | entry :: rest, a, b =>
    let here := compareColumn (a.getD entry.column) (b.getD entry.column)
    let here := match entry.direction with
      | .asc => here
      | .desc => here.swap
    here.then (compareRows rest a b)

/-- Rows in an order; rows that it does not tell apart stay as they were. -/
def sortRows (order : List OrderBy) (rows : List Row) : List Row :=
  if order.isEmpty then rows else rows.mergeSort fun a b => compareRows order a b != .gt

/-- The rows that a selection asks for, before it is cut. -/
def matching (t : Table) (clause : Clause) (order : List OrderBy) : List Row :=
  sortRows order (t.rows.filter clause.holds)

/-- The asked columns of a row, in the order of the row. -/
def project (columns : List String) (row : Row) : Row :=
  if columns.isEmpty then row else row.filter fun entry => columns.contains entry.1

/-- The rows of a selection. -/
def select (t : Table) (s : Selection) : List Row :=
  let rows := (t.matching s.clause s.order).drop (s.offset.getD 0)
  let rows := match s.limit with
    | none => rows
    | some limit => rows.take limit
  rows.map (project s.columns)

/-- The number of rows that a clause holds of. -/
def count (t : Table) (clause : Clause) : Nat :=
  (t.rows.filter clause.holds).length

/-- A row with new values; its primary key stays. -/
def overlay (row patch : Row) : Row :=
  row.extend (patch.filter fun entry => entry.1 ≠ primaryKey)

/-- Gives new values to the rows that a clause holds of, at most `limit` of them, and counts them. -/
def patchRows (clause : Clause) (patch : Row) : List Row → (limit : Option Nat) → List Row × Nat
  | [], _ => ([], 0)
  | row :: rest, limit =>
    if limit = some 0 then (row :: rest, 0)
    else if clause.holds row then
      let others := patchRows clause patch rest (limit.map (· - 1))
      (overlay row patch :: others.1, others.2 + 1)
    else
      let others := patchRows clause patch rest limit
      (row :: others.1, others.2)

/-- Gives new values to rows. -/
def patch (t : Table) (clause : Clause) (patch : Row) (limit : Option Nat) : Nat × Table :=
  let changed := patchRows clause patch t.rows limit
  (changed.2, { t with rows := changed.1 })

/-- Drops the rows that a clause holds of, and counts them. -/
def delete (t : Table) (clause : Clause) : Nat × Table :=
  (t.count clause, { t with rows := t.rows.filter fun row => !clause.holds row })

end Table

end SchemaQuery
