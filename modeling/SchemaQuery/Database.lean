import SchemaQuery.Query.Pagination
import SchemaQuery.Query.Request
import SchemaQuery.Schema.Scan

/-!
# Databases

A database is a registry of models and a store. Running a request gives its outcome together with the store
after it and the signals given on the way.
-/

namespace SchemaQuery

/-- How a database is used. -/
structure DatabaseOptions where
  /-- Whether the SQL of every statement is reported. -/
  debug : Bool
  /-- The length of a page when none is asked for. -/
  defaultLimit : Nat
  deriving DecidableEq

instance : Inhabited DatabaseOptions := ⟨false, defaultPageLimit⟩

namespace DatabaseOptions

/-- Options as members of an object. -/
def members (o : DatabaseOptions) : Members :=
  [("debug", .bool o.debug), ("default_limit", .ofNat o.defaultLimit)]

/-- Options as JSON. -/
def toJson (o : DatabaseOptions) : Json :=
  .obj o.members

/-- Reads options. -/
def ofDocument? (d : Document) : Option DatabaseOptions := do
  match ← d.fields? [["debug"], ["default_limit"]] with
  | [debug, defaultLimit] =>
    let debug ← Document.orElse? false Document.asBool? debug
    let defaultLimit ← Document.orElse? defaultPageLimit Document.asNat? defaultLimit
    return { debug, defaultLimit }
  | _ => none

/-- The least severity that a log of the database shows. -/
def leastSeverity (o : DatabaseOptions) : Severity :=
  if o.debug then .debug else .info

end DatabaseOptions

/-- A registry, a store and options. -/
structure Database where
  registry : Registry
  store : Store
  options : DatabaseOptions

/-- What an operation comes to: its result, the store after it, and the signals given, in order. -/
structure Outcome (α : Type) where
  result : Except QueryError α
  store : Store
  signals : List Signal

/-- What a request gives. -/
inductive Output where
  | rows (rows : List Row)
  /-- The first row, if there is one. -/
  | row (row : Option Row)
  | count (n : Nat)
  /-- The number of rows changed or dropped. -/
  | affected (n : Nat)
  /-- A row as stored. -/
  | inserted (row : Row)

namespace Output

/-- The rows of an output. -/
def toRows : Output → List Row
  | .rows list => list
  | .row found => found.toList
  | .inserted stored => [stored]
  | .count _ | .affected _ => []

/-- The first row of an output. -/
def toRow (o : Output) : Option Row :=
  o.toRows.head?

/-- The number that an output is. -/
def toCount : Output → Option Nat
  | .count n | .affected n => some n
  | _ => none

/-- The number of rows that an output speaks of. -/
def size : Output → Nat
  | .count n | .affected n => n
  | o => o.toRows.length

/-- Rows as JSON. -/
def rowsToJson (list : List Row) : Json :=
  .arr (list.map .obj)

/-- An output as JSON. -/
def toJson : Output → Json
  | .rows list => rowsToJson list
  | .row none => .null
  | .row (some found) => .obj found
  | .inserted stored => .obj stored
  | .count n | .affected n => .ofNat n

end Output

namespace Database

/-- A database with a store and no models yet. -/
def connect (store : Store) (options : DatabaseOptions) : Reported Database :=
  ⟨⟨.empty, store, options⟩,
    [.event .connected
      [("debug", toString options.debug), ("default_limit", toString options.defaultLimit)]]⟩

/-- An outcome that fails and leaves the store as it is. -/
def fail {α : Type} (db : Database) (signals : List Signal) (fault : QueryError) : Outcome α :=
  ⟨.error fault, db.store, signals⟩

/-- A request of a kind on a model. -/
def request (db : Database) (model : Model) (kind : RequestKind) : Request :=
  .ofKind model kind db.options.defaultLimit

/-- What is reported of a statement before it runs. -/
def announce (db : Database) (c : CompiledRequest) : List Signal :=
  if db.options.debug then
    let sql := c.statement.sql
    [.event .queryExecuted
      [("model", c.model.name), ("kind", c.kind.name), ("sql", sql.text),
        ("bindings", (Json.arr sql.bindings).compact)]]
  else []

/-- Loads the relations of a request into rows and cuts the rows to the asked columns. -/
def finish (db : Database) (c : CompiledRequest) (rows : List Row) : Except QueryError (List Row) :=
  (Load.loadAll db.registry db.store c.model c.populate rows).map fun rows =>
    rows.map (c.projection.apply (c.populate.map PopulateNode.name))

/-- A result of the storage, with its fault as one of the request. -/
def liftStore {α : Type} (result : Except StoreError α) : Except QueryError α :=
  match result with
  | .ok value => .ok value
  | .error fault => .error (.storage fault)

/-- Runs a statement: what it gives, and the store after it. -/
def runStatement (db : Database) (c : CompiledRequest) : Except QueryError (Output × Store) :=
  match c.statement with
  | .select selection => do
    let rows ← liftStore (db.store.select selection)
    let rows ← db.finish c rows
    return (if c.first then .row rows.head? else .rows rows, db.store)
  | .count table clause => do
    let n ← liftStore (db.store.count table clause)
    return (.count n, db.store)
  | .insert table row => do
    let (row, store) ← liftStore (db.store.insert table row)
    return (.inserted row, store)
  | .update table clause patch limit => do
    let (n, store) ← liftStore (db.store.patch table clause patch limit)
    return (.affected n, store)
  | .delete table clause => do
    let (n, store) ← liftStore (db.store.delete table clause)
    return (.affected n, store)

/-- Runs a compiled request. -/
def execute (db : Database) (c : CompiledRequest) : Outcome Output :=
  match db.runStatement c with
  | .error fault => db.fail (db.announce c) fault
  | .ok (output, store) =>
    ⟨.ok output, store,
      db.announce c ++ [.executed c.model.name c.kind.name c.statement.sql.text output.size]⟩

/-- Runs a compiled request for the rows from `start` up to and including `stop`. -/
def executeRange (db : Database) (c : CompiledRequest) (start stop : Nat) : Outcome Page :=
  match c.statement with
  | .select selection =>
    let page := do
      let page ← liftStore (db.store.selectRange selection start stop)
      let rows ← db.finish c page.rows
      return { page with rows }
    match page with
    | .error fault => db.fail (db.announce c) fault
    | .ok page =>
      ⟨.ok page, db.store,
        db.announce c ++ [.paged c.model.name c.statement.sql.text start stop page.total]⟩
  | _ => db.fail [] (.invalid (.notAllowed .paginate c.kind))

/-- Runs a request. -/
def run (db : Database) (r : Request) : Outcome Output :=
  match r.compile db.registry with
  | .error fault => db.fail [] fault
  | .ok c => db.execute c

/-- Runs a request for one page. -/
def paginate (db : Database) (r : Request) (p : Pagination) : Outcome (List Row × PageInfo) :=
  if r.kind ≠ .select ∨ r.first then db.fail [] (.invalid (.notAllowed .paginate r.kind))
  else
    let (number, limit) := p.resolve r.pageLimit
    let (start, stop) := Pagination.range number limit
    match r.compile db.registry with
    | .error fault => db.fail [] fault
    | .ok c =>
      let outcome := db.executeRange c start stop
      { outcome with
        result := outcome.result.map fun page => (page.rows, ⟨number, limit, page.total⟩) }

end Database

end SchemaQuery
