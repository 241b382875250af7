import SchemaQuery.Filter.Compile
import SchemaQuery.Filter.Lowering
import SchemaQuery.Query.Load
import SchemaQuery.Query.Projection

/-!
# Requests

A request is put together step by step and then compiled: its filter becomes a predicate, its relations are
checked, and a statement for the storage is made. Compiling changes nothing and can be repeated.
-/

namespace SchemaQuery

/-- A request on the rows of a model. -/
structure Request where
  model : Model
  kind : RequestKind
  filter : Filter
  projection : Projection
  order : List OrderBy
  limit : Option Nat
  offset : Option Nat
  populate : List PopulateNode
  /-- The row to insert, or the new values of an update. -/
  payload : Row
  /-- Whether only the first row is wanted. -/
  first : Bool
  /-- The length of a page when none is asked for. -/
  pageLimit : Nat

/-- A request of which the predicate and the statement are made. -/
structure CompiledRequest where
  model : Model
  kind : RequestKind
  tree : Option Predicate
  statement : Statement
  projection : Projection
  populate : List PopulateNode
  first : Bool

namespace Request

/-- A request of a kind on a model, with nothing said yet. -/
def ofKind (model : Model) (kind : RequestKind) (pageLimit : Nat) : Request :=
  { model, kind, filter := [], projection := .empty, order := [], limit := none, offset := none,
    populate := [], payload := [], first := false, pageLimit }

/-- Asks for the first row only. -/
def onlyFirst (r : Request) : Request :=
  { r with first := true }

/-- Gives the row to insert, or the new values of an update. -/
def withPayload (r : Request) (payload : Row) : Request :=
  { r with payload }

/-- Adds the members of a filter object; null adds nothing. -/
def addFilter (r : Request) : Json → Except QueryError Request
  | .obj members => .ok { r with filter := r.filter.extend members }
  | .null => .ok r
  | value => .error (.invalid (.filterNotAnObject value))

/-- Adds fields to read or to leave out. -/
def addFields (r : Request) (fields : Fields) : Except QueryError Request :=
  if r.kind = .select then .ok { r with projection := r.projection.pushAll fields }
  else .error (.invalid (.notAllowed .select r.kind))

/-- The order of a field: descending behind a minus. -/
def orderOf? (field : String) : Option OrderBy :=
  match Fields.splitMinus field with
  | ("", _) => none
  | (name, true) => some ⟨name, .desc⟩
  | (name, false) => some ⟨name, .asc⟩

/-- Adds fields to order by, of which there must be one at least. -/
def addOrder (r : Request) (fields : Fields) : Except QueryError Request :=
  match fields.names, fields.names.mapM orderOf? with
  | [], _ => .error (.invalid .sortParameter)
  | _, none => .error (.invalid .sortParameter)
  | _, some order => .ok { r with order := r.order ++ order }

/-- Sets the greatest number of rows, which is also the length of a page if it is not zero. -/
def setLimit (r : Request) (limit : Nat) : Request :=
  { r with limit := some limit, pageLimit := if 0 < limit then limit else r.pageLimit }

/-- Sets the number of rows to skip. -/
def setOffset (r : Request) (offset : Nat) : Request :=
  { r with offset := some offset }

/-- Adds relations to load. -/
def addPopulate (r : Request) (populate : Populate) : Except QueryError Request :=
  if r.kind = .select then
    populate.parse.map fun nodes => { r with populate := r.populate ++ nodes }
  else .error (.invalid (.notAllowed .populate r.kind))

/-- The columns that loading the relations of a request needs. -/
def requiredColumns (r : Request) : List String :=
  r.populate.filterMap (fun node => (r.model.relations.get? node.name).map Relation.sourceKey) ++
    if r.populate.isEmpty then [] else [primaryKey]

/-- The greatest number of rows for the storage. -/
def rowLimit (r : Request) : Option Nat :=
  if r.first then some 1 else r.limit

/-- The statement of a request with a clause. -/
def statement (r : Request) (registry : Registry) (clause : Clause) :
    Except QueryError Statement :=
  let table := r.model.table
  match r.kind with
  | .select => do
    Load.checkAll registry r.model r.populate
    return .select
      { table, clause, columns := r.projection.columns r.requiredColumns, order := r.order,
        limit := r.rowLimit, offset := r.offset }
  | .count => .ok (.count table clause)
  | .insert => .ok (.insert table r.payload)
  | .update =>
    if r.payload.isEmpty then .error (.invalid .emptyUpdate)
    else .ok (.update table clause r.payload r.rowLimit)
  | .delete => .ok (.delete table clause)

/-- Makes the predicate and the statement of a request. -/
def compile (r : Request) (registry : Registry) : Except QueryError CompiledRequest :=
  match r.filter.compile with
  | .error fault => .error (.filter fault)
  | .ok tree => do
    let statement ← r.statement registry (Clause.ofPredicate tree)
    return { model := r.model, kind := r.kind, tree, statement, projection := r.projection,
             populate := r.populate, first := r.first }

end Request

end SchemaQuery
