import SchemaQuery.Database
import SchemaQuery.Schema.Coercion

/-!
# Rows of a model

Making, changing and dropping rows through a model. What is written is cut down to the declared properties
and brought to their types first.
-/

namespace SchemaQuery

namespace Database

/-- The members of a document. -/
def documentMembers : Json → Except QueryError Members
  | .obj members => .ok members
  | value => .error (.invalid (.documentNotAnObject value))

/-- Runs a request behind some signals. -/
def runAfter (db : Database) (signals : List Signal) (r : Except QueryError Request) :
    Outcome Output :=
  match r with
  | .error fault => db.fail signals fault
  | .ok r =>
    let outcome := db.run r
    { outcome with signals := signals ++ outcome.signals }

/-- An outcome with its output turned into a number. -/
def counted (outcome : Outcome Output) : Outcome Nat :=
  { outcome with result := outcome.result.map fun output => output.toCount.getD 0 }

/-- Makes a row of a document: its declared properties, each in its type, with the defaults of those that
are missing. Gives the row as stored. -/
def create (db : Database) (now : Calendar.Instant) (model : Model) (doc : Json) : Outcome Row :=
  match documentMembers doc with
  | .error fault => db.fail [] fault
  | .ok members =>
    let coerced := model.coerce members
    let row := model.fillDefaults now coerced.value
    let outcome := db.runAfter coerced.signals (.ok ((db.request model .insert).withPayload row))
    { outcome with result := outcome.result.map fun output => output.toRow.getD [] }

/-- A request for the rows that a filter holds of. -/
def find (db : Database) (model : Model) (filter : Json) : Except QueryError Request :=
  (db.request model .select).addFilter filter

/-- A request for the first row that a filter holds of. -/
def findOne (db : Database) (model : Model) (filter : Json) : Except QueryError Request :=
  (db.request model .select).onlyFirst.addFilter filter

/-- Counts the rows that a filter holds of. -/
def count (db : Database) (model : Model) (filter : Json) : Outcome Nat :=
  counted (db.runAfter [] ((db.request model .count).addFilter filter))

/-- Gives new values to the rows that a filter holds of, or to the first of them. -/
def updateWhere (db : Database) (model : Model) (single : Bool) (filter doc : Json) : Outcome Nat :=
  match documentMembers doc with
  | .error fault => db.fail [] fault
  | .ok members =>
    let coerced := model.coerce members
    let request := (db.request model .update).withPayload coerced.value
    let request := if single then request.onlyFirst else request
    counted (db.runAfter coerced.signals (request.addFilter filter))

/-- Gives new values to every row that a filter holds of. -/
def updateMany (db : Database) (model : Model) (filter doc : Json) : Outcome Nat :=
  db.updateWhere model false filter doc

/-- Gives new values to the first row that a filter holds of. -/
def updateOne (db : Database) (model : Model) (filter doc : Json) : Outcome Nat :=
  db.updateWhere model true filter doc

/-- Drops the rows that a filter holds of. -/
def deleteMany (db : Database) (model : Model) (filter : Json) : Outcome Nat :=
  counted (db.runAfter [] ((db.request model .delete).addFilter filter))

/-- Writes the declared properties of a row back to the row with its primary key. -/
def save (db : Database) (model : Model) (row : Row) : Outcome Nat :=
  let id := row.getD primaryKey
  if id.isNull then db.fail [] (.invalid .saveWithoutId)
  else
    let coerced := model.coerce row
    if coerced.value.isEmpty then ⟨.ok 0, db.store, coerced.signals⟩
    else
      let request := ((db.request model .update).withPayload coerced.value).onlyFirst
      counted (db.runAfter coerced.signals (request.addFilter (.obj [(primaryKey, id)])))

/-- Merges a document into a row and saves the row; gives the row too, which has changed unless the
document is no object. -/
def update (db : Database) (model : Model) (row : Row) (doc : Json) : Row × Outcome Nat :=
  match doc with
  | .obj members =>
    let merged := row.extend members
    (merged, db.save model merged)
  | value => (row, db.fail [] (.invalid (.updateNotAnObject value)))

end Database

end SchemaQuery
