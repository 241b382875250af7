import SchemaQuery.Proofs.Rows.Operations
import SchemaQuery.Proofs.Storage.PrimaryKeys

/-!
# All or nothing

An operation that fails has done nothing: the rows of every table, their order and the greatest primary keys are
what they were, at whatever stage it failed. Reading does nothing in any case. That a refused row leaves no trace
does not come from throwing a changed table away: adding the row in place, where the greatest primary key is
raised before the row is there, comes to the same.
-/

namespace SchemaQuery

/-! ## Adding a row in place -/

namespace Table

/-- Gives a row its primary key in place: the table is left with the key accounted for and without the row. -/
def claimId (t : Table) (row : Row) : Except StoreError Row × Table :=
  match row.getD primaryKey with
  | .null => (.ok (stored (t.lastId + 1) row), { t with lastId := t.lastId + 1 })
  | value =>
    match value.asNat? with
    | none => (.error (.invalidPrimaryKey value), t)
    | some id =>
      if t.hasId value then (.error (.duplicatePrimaryKey id), t)
      else (.ok (stored id row), { t with lastId := max t.lastId id })

/-- Adds a row in place, primary key first. -/
def insertInPlace (t : Table) (row : Row) : Except StoreError Row × Table :=
  match t.claimId row with
  | (.error fault, claimed) => (.error fault, claimed)
  | (.ok added, claimed) => (.ok added, { claimed with rows := claimed.rows ++ [added] })

variable {t : Table} {row : Row}

/-- The key is the one that is found for the row, and no row without a key leaves a trace. -/
theorem claimId_eq (t : Table) (row : Row) : t.claimId row =
    match t.newId row with
    | .error fault => (.error fault, t)
    | .ok id => (.ok (stored id row), { t with lastId := max t.lastId id }) := by
  rw [claimId.eq_def, newId.eq_def]
  cases row.getD primaryKey with
  | null =>
    have hraised : max t.lastId (t.lastId + 1) = t.lastId + 1 := Nat.max_eq_right (Nat.le_succ _)
    simp only [hraised]
  | bool | int | float | str | arr | obj =>
    dsimp only
    generalize Json.asNat? _ = number
    cases number with
    | none => rfl
    | some id =>
      dsimp only
      split <;> rfl

/-- Adding a row in place comes to the same as adding it, and to nothing where that fails. -/
theorem insertInPlace_eq (t : Table) (row : Row) : t.insertInPlace row =
    match t.insert row with
    | .error fault => (.error fault, t)
    | .ok (added, after) => (.ok added, after) := by
  rw [insertInPlace, claimId_eq]
  cases hid : t.newId row with
  | error fault => rw [insert_of_newId_error hid]
  | ok id => rw [insert_of_newId hid]

end Table

/-! ## Operations -/

namespace Database

/-- An operation through a model, or a request, that fails leaves every table as it was, its rows in their
order and its greatest primary key; an operation that only reads does so in any case. A row that is refused
leaves no trace in its table either when it is added in place. -/
theorem fails_without_trace (db : Database) :
    (∀ (model : Model) (op : Operation), (∀ fault, (db.perform model op).result = .error fault →
        (db.perform model op).store = db.store) ∧
      (op.IsReading → (db.perform model op).store = db.store)) ∧
    (∀ (r : Request) (fault : QueryError), (db.run r).result = .error fault → (db.run r).store = db.store) ∧
    ∀ (t : Table) (row : Row), t.insertInPlace row =
      match t.insert row with
      | .error fault => (.error fault, t)
      | .ok (added, after) => (.ok added, after) := by
  refine ⟨fun model op => ⟨fun fault => ?_, db.store_perform_of_isReading model⟩, fun r fault => ?_,
    Table.insertInPlace_eq⟩
  · exact (db.perform_takesOne model op).store_of_error
  · exact (db.run_takesOne r).store_of_error

/-- A book is made under a primary key that is taken, by an operation and by a request, and the books are asked
for page by page. -/
theorem fails_without_trace_books :
    let id : Property := ⟨"Number", .number, false, none⟩
    let book : Model := ⟨"Book", "book", .ofList [(primaryKey, id)], .empty⟩
    let row : Row := [(primaryKey, .ofNat 7)]
    let db : Database := ⟨.empty, ⟨.ofList [("book", ⟨[row], 9⟩)]⟩, default⟩
    let again : Operation := .create ⟨0, 0, 0⟩ (.obj row)
    let request := (db.request book .insert).withPayload row
    let paged : Operation := .find false .null [.limit 5] (.page ⟨some 1, none⟩)
    (db.perform book again).result = .error (.storage (.duplicatePrimaryKey 7)) ∧
      (db.perform book again).store = db.store ∧
      (db.run request).result = .error (.storage (.duplicatePrimaryKey 7)) ∧ (db.run request).store = db.store ∧
      (db.perform book paged).result = .ok () ∧ (db.perform book paged).store = db.store := by
  intro id book row db again request paged
  have hagain : (db.perform book again).result = .error (.storage (.duplicatePrimaryKey 7)) := rfl
  have hrequest : (db.run request).result = .error (.storage (.duplicatePrimaryKey 7)) := rfl
  obtain ⟨hoperations, hrequests, -⟩ := fails_without_trace db
  exact ⟨hagain, (hoperations book again).1 _ hagain, hrequest, hrequests request _ hrequest, rfl,
    (hoperations book paged).2 trivial⟩

end Database

end SchemaQuery
