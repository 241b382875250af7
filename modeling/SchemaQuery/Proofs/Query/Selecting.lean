import SchemaQuery.Database
import SchemaQuery.Proofs.Basic

/-!
# Requests for rows

A request for rows compiles when its filter does and the relations it loads exist, and then it is a selection
of the rows of its model. Running it reads the selection, or a range of it, and finishes the rows: what it
fails with comes from the storage or from loading the relations.
-/

namespace SchemaQuery

namespace Request

/-- The selection of a request for rows, with a clause. -/
def selection (r : Request) (clause : Clause) : Selection :=
  { table := r.model.table, clause, columns := r.projection.columns r.requiredColumns, order := r.order,
    limit := r.rowLimit, offset := r.offset }

/-- A request for rows with its predicate and its selection. -/
def selecting (r : Request) (tree : Option Predicate) : CompiledRequest where
  model := r.model
  kind := .select
  tree := tree
  statement := .select (r.selection (Clause.ofPredicate tree))
  projection := r.projection
  populate := r.populate
  first := r.first

/-- A request for rows compiles when its filter does and the relations it loads exist. -/
theorem compile_select {r : Request} (hkind : r.kind = .select) (registry : Registry) :
    r.compile registry =
      match r.filter.compile with
      | .error fault => .error (.filter fault)
      | .ok tree => (Load.checkAll registry r.model r.populate).map fun _ => r.selecting tree := by
  rw [compile]
  cases r.filter.compile with
  | error fault => rfl
  | ok tree =>
    simp only [statement, hkind]
    cases Load.checkAll registry r.model r.populate with
    | error fault => rfl
    | ok checked => rfl

end Request

namespace Database

variable (db : Database) (r : Request) (tree : Option Predicate)

/-- Running a request for rows gives the rows of its selection, finished. -/
theorem result_execute_select :
    (db.execute (r.selecting tree)).result =
      (liftStore (db.store.select (r.selection (Clause.ofPredicate tree))) >>=
        db.finish (r.selecting tree)).map fun rows =>
          if r.first then .row rows.head? else .rows rows := by
  simp only [execute, runStatement, Request.selecting]
  cases liftStore (db.store.select (r.selection (Clause.ofPredicate tree))) with
  | error fault => rfl
  | ok rows =>
    simp only [bind, Except.bind]
    cases db.finish _ rows with
    | error fault => rfl
    | ok rows => rfl

/-- Running a request for rows on a range gives the rows of the range, finished. -/
theorem result_executeRange_select (start stop : Nat) :
    (db.executeRange (r.selecting tree) start stop).result =
      liftStore (db.store.selectRange (r.selection (Clause.ofPredicate tree)) start stop) >>=
        fun page => (db.finish (r.selecting tree) page.rows).map fun rows => { page with rows } := by
  simp only [executeRange, Request.selecting]
  cases liftStore (db.store.selectRange (r.selection (Clause.ofPredicate tree)) start stop) with
  | error fault => rfl
  | ok page =>
    simp only [bind, Except.bind]
    cases db.finish _ page.rows with
    | error fault => rfl
    | ok rows => rfl

end Database

end SchemaQuery
