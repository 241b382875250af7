import SchemaQuery.Query.Populate
import SchemaQuery.Schema.Registry
import SchemaQuery.Storage.Store

/-!
# Loading relations

The rows that belong to a list of rows are fetched once for the whole list and then attached row by row:
an array where a row has many, an object or null where it belongs to one.
-/

namespace SchemaQuery

namespace Load

/-- The relation of a name. -/
def relation (model : Model) (name : String) : Except QueryError Relation :=
  match model.relations.get? name with
  | some relation => .ok relation
  | none => .error (.unknownRelation model.name name)

/-- The model of a name. -/
def modelNamed (registry : Registry) (name : String) : Except QueryError Model :=
  match registry.models.get? name with
  | some model => .ok model
  | none => .error (.schema (.modelNotFound name))

mutual

/-- Whether a relation and all below it exist. -/
def checkNode (registry : Registry) (model : Model) : PopulateNode → Except QueryError Unit
  | .node name children => do
    let relation ← relation model name
    if children.isEmpty then return ()
    else
      let target ← modelNamed registry relation.model
      checkAll registry target children

/-- Whether all relations exist. -/
def checkAll (registry : Registry) (model : Model) : List PopulateNode → Except QueryError Unit
  | [] => .ok ()
  | node :: rest => do
    checkNode registry model node
    checkAll registry model rest

end

/-- The values of a column, each once and none null, in the order in which they come. -/
def distinctKeys (column : String) (rows : List Row) : List Json :=
  rows.foldl
    (fun keys row =>
      let key := row.getD column
      if key.isNull || keys.any (·.equals key) then keys else keys ++ [key])
    []

/-- The selection of the rows with one of some keys, by primary key. -/
def selectionOf (table column : String) (keys : List Json) : Selection :=
  { Selection.ofClause table (Clause.empty.andWhere (.oneOf column keys)) with
    order := [⟨primaryKey, .asc⟩] }

/-- The rows that belong to the rows of a list. -/
def fetch (store : Store) (table column : String) (keys : List Json) :
    Except QueryError (List Row) :=
  if keys.isEmpty then .ok []
  else
    match store.select (selectionOf table column keys) with
    | .ok rows => .ok rows
    | .error fault => .error (.storage fault)

/-- What is attached to a row with a key. -/
def attachment (relation : Relation) (related : List Row) (key : Json) : Json :=
  let linked (candidate : Row) : Bool := (candidate.getD relation.targetKey).equals key
  match relation.kind with
  | .hasMany => .arr ((related.filter linked).map .obj)
  | .belongsTo =>
    match related.find? linked with
    | some row => .obj row
    | none => .null

/-- Attaches related rows to a row under a name. -/
def attach (relation : Relation) (name : String) (related : List Row) (row : Row) : Row :=
  row.insert name (attachment relation related (row.getD relation.sourceKey))

mutual

/-- Loads one relation, with all below it, into rows. -/
def loadNode (registry : Registry) (store : Store) (model : Model) :
    PopulateNode → List Row → Except QueryError (List Row)
  | .node name children, rows => do
    let relation ← relation model name
    let target ← modelNamed registry relation.model
    let keys := distinctKeys relation.sourceKey rows
    let related ← fetch store target.table relation.targetKey keys
    let related ← loadAll registry store target children related
    return rows.map (attach relation name related)

/-- Loads relations into rows, one after another. -/
def loadAll (registry : Registry) (store : Store) (model : Model) :
    List PopulateNode → List Row → Except QueryError (List Row)
  | [], rows => .ok rows
  | node :: rest, rows => do
    let rows ← loadNode registry store model node rows
    loadAll registry store model rest rows

end

end Load

end SchemaQuery
