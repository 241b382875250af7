import SchemaQuery.Proofs.Filter.Meaning
import SchemaQuery.Proofs.Query.Selecting
import SchemaQuery.Proofs.Rows.Operations
import SchemaQuery.Proofs.Schema.Integrity

/-!
# Models and their tables

The rows of a model are the rows of the table that is named after it in lower case, and an operation through a
model works on that table alone. Models are therefore kept apart by the lower case of their names: what is done
through one leaves the rows alone that are read through another, unless the two names are the same in lower case,
and then the two models read the same rows.
-/

namespace SchemaQuery

namespace Database

/-- What all rows of a model are read as: the rows that the filter without members holds of. -/
def everyRow (db : Database) (model : Model) : Except QueryError Output :=
  (db.runAfter [] (db.find model (.obj []))).result

variable (db : Database) (model : Model)

/-- All rows of a model are the rows of its table, if it is there. -/
theorem everyRow_eq : db.everyRow model =
    (liftStore (db.store.table model.table)).map fun t => .rows t.rows := by
  cases htable : db.store.table model.table with
  | error fault =>
    have hresult : db.everyRow model = _ := db.result_execute_select (db.request model .select) none
    have hselect (clause : Clause) :
        db.store.select ((db.request model .select).selection clause) = .error fault := by
      rw [Store.select, show ((db.request model .select).selection clause).table = model.table from rfl, htable]
      rfl
    rw [hresult, hselect]
    rfl
  | ok t =>
    have haccepted : Filter.compile [] = .ok none := rfl
    obtain ⟨request, hrequest, hresult⟩ := db.run_find model haccepted List.nodup_nil htable
    have hevery : t.rows.filter (Clause.ofPredicate none).holds = t.rows :=
      List.filter_eq_self.mpr fun _ _ => rfl
    rw [everyRow, hrequest]
    exact hresult.trans (by rw [hevery]; rfl)

/-- An operation through a model leaves every other table as it was. -/
theorem get?_performed (op : Operation) {table : String} (h : table ≠ model.table) :
    (db.performed model op).store.tables.get? table = db.store.tables.get? table := by
  obtain hkept | ⟨-, action, haction, hstep⟩ := db.perform_takesOne model op
  · rw [performed, hkept]
  · rw [performed, hstep, Store.get?_step, if_neg fun hconcerns => h (haction.eq_table hconcerns)]

/-- An operation through a model leaves the rows of a model with another table as they were. -/
theorem everyRow_performed (op : Operation) {other : Model} (h : other.table ≠ model.table) :
    (db.performed model op).everyRow other = db.everyRow other := by
  simp only [everyRow_eq, Store.table, db.get?_performed model op h]

end Database

namespace Registry

variable {steps : List RegistryStep} {a b : String} {A B : Model}

/-- The table of a registered model is named after the model, in lower case. -/
theorem table_of_run (h : (empty.run steps).models.get? a = some A) : A.table = Text.lower a :=
  ((Sound.empty.run steps).named a A h).table

/-- Registered models whose names are the same in lower case read the same rows. -/
theorem everyRow_eq_of_lower_eq (hA : (empty.run steps).models.get? a = some A)
    (hB : (empty.run steps).models.get? b = some B) (hab : Text.lower a = Text.lower b) (db : Database) :
    db.everyRow A = db.everyRow B := by
  rw [db.everyRow_eq, db.everyRow_eq, table_of_run hA, table_of_run hB, hab]

/-- Whatever is done through one registered model leaves the rows that are read through another as they were,
unless the names of the two are the same in lower case. -/
theorem models_isolated (hA : (empty.run steps).models.get? a = some A)
    (hB : (empty.run steps).models.get? b = some B) (hab : Text.lower a ≠ Text.lower b) (store : Store)
    (options : DatabaseOptions) (op : Operation) :
    let db : Database := ⟨empty.run steps, store, options⟩
    (db.performed A op).everyRow B = db.everyRow B := by
  refine Database.everyRow_performed _ A op ?_
  rw [table_of_run hA, table_of_run hB]
  exact hab.symm

/-- A user is made while there is a book: the books stay as they were, and there is one user more. -/
theorem models_isolated_books :
    let steps : List RegistryStep :=
      [.register "User" (some .empty) none none, .register "Book" (some .empty) none none]
    let store : Store := ⟨.ofList [("user", .empty), ("book", ⟨[[("id", .ofNat 1)]], 1⟩)]⟩
    let db : Database := ⟨empty.run steps, store, default⟩
    ∃ user book, (empty.run steps).models.get? "User" = some user ∧
      (empty.run steps).models.get? "Book" = some book ∧ Text.lower "User" ≠ Text.lower "Book" ∧
      (db.performed user (.create ⟨0, 0, 0⟩ (.obj []))).everyRow book = db.everyRow book ∧
      ((db.performed user (.create ⟨0, 0, 0⟩ (.obj []))).everyRow user).toOption.map Output.size = some 1 := by
  intro steps store db
  have hlower : Text.lower "User" ≠ Text.lower "Book" := by decide +kernel
  refine ⟨_, _, rfl, rfl, hlower, models_isolated rfl rfl hlower _ _ _, ?_⟩
  decide +kernel

/-- Two models may be registered whose names differ in case alone. They share their rows: a user that is made
through one of them is read through the other. -/
theorem models_share_rows :
    let steps : List RegistryStep :=
      [.register "User" (some .empty) none none, .register "user" (some .empty) none none]
    let db : Database := ⟨empty.run steps, .ofTables ["user"], default⟩
    ∃ upper lower, (empty.run steps).models.get? "User" = some upper ∧
      (empty.run steps).models.get? "user" = some lower ∧
      (db.performed upper (.create ⟨0, 0, 0⟩ (.obj []))).everyRow lower ≠ db.everyRow lower := by
  intro steps db
  refine ⟨_, _, rfl, rfl, fun hsame => ?_⟩
  have hsizes := congrArg (fun read => read.toOption.map Output.size) hsame
  revert hsizes
  decide +kernel

end Registry

end SchemaQuery
