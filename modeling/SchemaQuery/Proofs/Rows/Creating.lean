import SchemaQuery.Proofs.Rows.Operations
import SchemaQuery.Proofs.Rows.Saving
import SchemaQuery.Proofs.Schema.Coercion

/-!
# Making a row

What a new row holds, column by column: the form of the given value in the type of the property, null where it
is given and allowed, or else the default. The storage puts the row behind the rows that are there, with its
primary key in front, and gives it back as it is stored. The key is new, because a table that was reached from the
empty one by operations through models satisfies the invariant of primary keys while its counter is of 64 bits.
-/

namespace SchemaQuery

/-! ## The columns of a new row -/

namespace Property

/-- What a new row has for a property, given what the document says of it. -/
def created (p : Property) (now : Calendar.Instant) : Option Json → Option Json
  | some .null => if p.required then p.fallback.map (·.resolve now) else some .null
  | some value => (p.kind.coerce? value).or (p.fallback.map (·.resolve now))
  | none => p.fallback.map (·.resolve now)

/-- A new row has what is kept of a property, or else the default. -/
theorem created_eq (p : Property) (now : Calendar.Instant) (given : Option Json) :
    p.created now given = (p.coerce given).kept?.or (p.fallback.map (·.resolve now)) := by
  cases given with
  | none => rfl
  | some value =>
    cases value with
    | null => cases hrequired : p.required <;> simp [created, coerce, hrequired, Coerced.kept?]
    | bool | int | float | str | arr | obj =>
      simp only [created, coerce]
      split <;> simp_all [Coerced.kept?]

end Property

namespace Model

variable (model : Model) (now : Calendar.Instant)

/-- What a new row has in a column, given the document. A column that is not declared has nothing. -/
def created (doc : Members) (column : String) : Option Json :=
  (model.properties.get? column).bind fun p => p.created now (doc.get? column)

/-- Gives a declared property that a row lacks its default. -/
def fillDefault (row : Members) (entry : String × Property) : Members :=
  match entry.2.fallback with
  | some fallback => if row.contains entry.1 then row else row.insert entry.1 (fallback.resolve now)
  | none => row

/-- The defaults are filled in one after the other. -/
theorem fillDefaults_eq (row : Members) :
    model.fillDefaults now row = model.properties.entries.foldl (fillDefault now) row :=
  rfl

/-- Filling in a default changes the answer for its name alone, and only if there was none. -/
theorem get?_fillDefault (row : Members) (entry : String × Property) (column : String) :
    (fillDefault now row entry).get? column =
      (row.get? column).or
        (if entry.1 = column then entry.2.fallback.map (·.resolve now) else none) := by
  unfold fillDefault
  split
  · next fallback hfallback =>
    rw [hfallback, Members.contains]
    by_cases hname : entry.1 = column
    · cases hfound : row.get? column <;> simp [hname, hfound, Members.get?_insert]
    · split <;> simp [hname, Members.get?_insert]
  · next hnone => simp [hnone]

/-- Filling in a default keeps the names distinct. -/
theorem nodup_names_fillDefault {row : Members} (h : row.names.Nodup) (entry : String × Property) :
    (fillDefault now row entry).names.Nodup := by
  unfold fillDefault
  split
  · split
    · exact h
    · exact Members.nodup_names_insert h ..
  · exact h

/-- A row with the defaults of what it lacks answers with its own values first. -/
theorem get?_fillDefaults (row : Members) (column : String) :
    (model.fillDefaults now row).get? column =
      (row.get? column).or
        ((model.properties.get? column).bind fun p => p.fallback.map (·.resolve now)) := by
  rw [fillDefaults_eq]
  obtain ⟨-, -, ⟨entries, hsorted⟩, -⟩ := model
  change (entries.foldl (fillDefault now) row).get? column = (row.get? column).or
    (((entries.find? fun entry => entry.1 = column).map Prod.snd).bind fun p => p.fallback.map (·.resolve now))
  induction entries generalizing row with
  | nil => simp
  | cons entry rest ih =>
    obtain ⟨hhead, hrest⟩ := List.pairwise_cons.mp hsorted
    rw [List.foldl_cons, ih _ hrest, get?_fillDefault, Option.or_assoc]
    by_cases hname : entry.1 = column
    · subst hname
      -- The later properties have greater names.
      simp [Dictionary.find?_of_forall_lt hhead]
    · rw [List.find?_cons_of_neg (by simpa using hname), if_neg hname, Option.none_or]

/-- Filling in defaults keeps the names distinct. -/
theorem nodup_names_fillDefaults {row : Members} (h : row.names.Nodup) :
    (model.fillDefaults now row).names.Nodup :=
  List.foldlRecOn (motive := fun row => (Members.names row).Nodup) _ _ h fun _ hrow entry _ =>
    nodup_names_fillDefault now hrow entry

/-- The row that is made of a document to be stored. -/
def newRow (doc : Members) : Row :=
  model.fillDefaults now (model.coerce doc).value

/-- The row that is made of a document has in each column what a new row has. -/
theorem get?_newRow (doc : Members) (column : String) :
    (model.newRow now doc).get? column = model.created now doc column := by
  rw [newRow, get?_fillDefaults, get?_coerce, created]
  cases model.properties.get? column with
  | none => rfl
  | some p => exact (p.created_eq now (doc.get? column)).symm

/-- The row that is made of a document has distinct names. -/
theorem nodup_names_newRow (doc : Members) : (model.newRow now doc).names.Nodup :=
  model.nodup_names_fillDefaults now (model.nodup_names_coerce doc)

/-- What a document says under a name that is not declared does not count. -/
theorem coerce_insert {name : String} (h : model.properties.get? name = none) (doc : Members) (value : Json) :
    model.coerce (doc.insert name value) = model.coerce doc := by
  refine model.coerce_congr fun declared hdeclared => ?_
  have hname : name ≠ declared := by
    rintro rfl
    rw [h] at hdeclared
    cases hdeclared
  rw [Members.get?_insert, if_neg hname]

end Model

/-! ## The stored row -/

namespace Table

/-- A stored row has its primary key in front and the other columns as they were. -/
theorem get?_stored (id : Nat) (row : Row) (column : String) :
    (stored id row).get? column = if column = primaryKey then some (.ofNat id) else row.get? column := by
  rw [stored, Members.get?]
  by_cases hcolumn : column = primaryKey
  · rw [if_pos hcolumn.symm, if_pos hcolumn]
  · rw [if_neg (Ne.symm hcolumn), if_neg hcolumn]
    have hfilter := Members.get?_filter row (fun name => decide (name ≠ primaryKey)) column
    rwa [if_pos (by simpa using hcolumn)] at hfilter

/-- A row with distinct names is stored with distinct names. -/
theorem nodup_names_stored (id : Nat) {row : Row} (h : row.names.Nodup) : (stored id row).names.Nodup := by
  refine List.nodup_cons.mpr ⟨fun hmem => ?_, h.sublist (List.filter_sublist.map _)⟩
  obtain ⟨entry, hentry, hname⟩ := List.mem_map.mp hmem
  exact of_decide_eq_true (List.mem_filter.mp hentry).2 hname

/-- A stored row is led by its number. -/
theorem getD_stored (id : Nat) (row : Row) : (stored id row).getD primaryKey = .ofNat id :=
  Members.getD_of_head? rfl

/-- While the counter has room, the key that is found for a row is of 64 bits and leads no row. -/
theorem Keyed.newId_unused {t : Table} (ht : t.Keyed) (hroom : t.lastId < Whole.greatest) {row : Row} {id : Nat}
    (hid : t.newId row = .ok id) : id ≤ Whole.greatest ∧ ∀ old ∈ t.rows, old.getD primaryKey ≠ .ofNat id := by
  obtain ⟨hle, hnew⟩ := ht.newId_fresh (fun _ => hroom) hid
  exact ⟨hle, fun old hold hkey => hnew (ht.mem_keys_iff.mp (List.mem_map.mpr ⟨old, hold, hkey⟩))⟩

/-- A row that brings a key of 64 bits which leads no row keeps it. -/
theorem Keyed.newId_of_unused {t : Table} (ht : t.Keyed) {row : Row} {id : Nat} (hle : id ≤ Whole.greatest)
    (hkey : row.getD primaryKey = .ofNat id) (hnew : ∀ old ∈ t.rows, old.getD primaryKey ≠ .ofNat id) :
    t.newId row = .ok id := by
  have hfree : ¬t.hasId (.ofNat id) = true := fun hthere => by
    obtain ⟨old, hold, hhead⟩ := (ht.hasId_iff hle).mp hthere
    exact hnew old hold (Members.getD_of_head? hhead)
  rw [newId_of_asNat?_eq_some (hkey ▸ Json.asNat?_eq_some_iff.mpr ⟨hle, rfl⟩), if_neg hfree]

/-- A step other than emptying keeps the invariant, unless the counter leaves 64 bits. -/
theorem Keyed.step_of_lastId_le {t : Table} (ht : t.lastId ≤ Whole.greatest → t.Keyed) {action : StoreStep}
    (haction : action ≠ .truncate) (hafter : (t.step action).lastId ≤ Whole.greatest) :
    (t.step action).Keyed := by
  have hbefore : t.Keyed := ht (Nat.le_trans (t.lastId_le_step haction) hafter)
  refine hbefore.step action fun name row heq hnull => ?_
  subst heq
  rw [Table.step, insert_of_newId (newId_of_isNull hnull)] at hafter
  exact Nat.lt_of_succ_le (Nat.le_trans (Nat.le_max_right ..) hafter)

end Table

/-! ## Operations through models -/

/-- Nothing that may be done through a model empties the store. -/
theorem Model.Writes.ne_truncate {model : Model} {action : StoreStep} (h : model.Writes action) :
    action ≠ .truncate := by
  cases h <;> nofun

/-- Whether the invariant of primary keys holds of every table whose counter is of 64 bits. -/
def Store.KeyedWithin (s : Store) : Prop :=
  ∀ name, ∀ t ∈ s.tables.get? name, t.lastId ≤ Whole.greatest → t.Keyed

/-- A step other than emptying leaves the invariant to every table whose counter is still of 64 bits. -/
theorem Store.KeyedWithin.step {s : Store} (hs : s.KeyedWithin) {action : StoreStep} (h : action ≠ .truncate) :
    (s.step action).KeyedWithin :=
  forall_tables_step (fun _ _ => Table.keyed_empty) hs fun name t ht _ =>
    Table.Keyed.step_of_lastId_le (hs name t ht) h

namespace Database

/-- The database after operations on the rows of models, done in order. -/
def performedEach (db : Database) (ops : List (Model × Operation)) : Database :=
  ops.foldl (fun db entry => db.performed entry.1 entry.2) db

variable (db : Database) (model : Model) (now : Calendar.Instant)

/-- An operation through a model leaves the invariant to every table whose counter is still of 64 bits. -/
theorem keyedWithin_performed (h : db.store.KeyedWithin) (op : Operation) :
    (db.performed model op).store.KeyedWithin := by
  change (db.perform model op).store.KeyedWithin
  obtain hkept | ⟨-, action, haction, hstep⟩ := db.perform_takesOne model op
  · rw [hkept]
    exact h
  · rw [hstep]
    exact h.step haction.ne_truncate

/-- Operations through models leave the invariant to every table whose counter is still of 64 bits. -/
theorem keyedWithin_performedEach (h : db.store.KeyedWithin) (ops : List (Model × Operation)) :
    (db.performedEach ops).store.KeyedWithin := by
  induction ops generalizing db with
  | nil => exact h
  | cons entry rest ih => exact ih _ (db.keyedWithin_performed entry.1 h entry.2)

/-! ## Making a row -/

/-- Making a row gives what the storage gives when the row is added, and leaves the store that it leaves. -/
theorem create_eq (doc : Members) :
    ((db.create now model (.obj doc)).result, (db.create now model (.obj doc)).store) =
      match db.store.insert model.table (model.newRow now doc) with
      | .ok (added, store) => (.ok added, store)
      | .error fault => (.error (.storage fault), db.store) := by
  change ((db.run ((db.request model .insert).withPayload (model.newRow now doc))).result.map _,
    (db.run ((db.request model .insert).withPayload (model.newRow now doc))).store) = _
  have hcompile : ((db.request model .insert).withPayload (model.newRow now doc)).compile db.registry =
      .ok { model, kind := .insert, tree := none, statement := .insert model.table (model.newRow now doc),
            projection := .empty, populate := [], first := false } := rfl
  rw [run, hcompile]
  simp only [execute, runStatement]
  cases db.store.insert model.table (model.newRow now doc) <;> rfl

/-- Without the table of its model no row is made. -/
theorem exists_table_of_create {doc : Json} {row : Row} (h : (db.create now model doc).result = .ok row) :
    ∃ members t, doc = .obj members ∧ db.store.tables.get? model.table = some t := by
  cases doc with
  | null | bool | int | float | str | arr => cases h
  | obj members =>
    cases ht : db.store.tables.get? model.table with
    | some t => exact ⟨members, t, rfl, rfl⟩
    | none =>
      have htable : db.store.table model.table = .error (.unknownTable model.table) := by
        simp [Store.table, ht]
      have hcreate := db.create_eq model now members
      rw [Store.insert, htable] at hcreate
      cases h.symm.trans (Prod.mk.inj hcreate).1

/-- With the table of its model a row is made when a key is found for it: it is put last, as it is given back. -/
theorem create_of_newId {t : Table} (ht : db.store.tables.get? model.table = some t) {doc : Members} {id : Nat}
    (hid : t.newId (model.newRow now doc) = .ok id) :
    (db.create now model (.obj doc)).result = .ok (Table.stored id (model.newRow now doc)) ∧
      (db.create now model (.obj doc)).store = db.store.withTable model.table
        ⟨t.rows ++ [Table.stored id (model.newRow now doc)], max t.lastId id⟩ := by
  have hcreate := db.create_eq model now doc
  rw [Store.insert_of_table ht, Table.insert_of_newId hid] at hcreate
  exact Prod.mk.inj hcreate

/-- A row for which no key is found is not made. -/
theorem create_of_newId_error {t : Table} (ht : db.store.tables.get? model.table = some t) {doc : Members}
    {fault : StoreError} (hid : t.newId (model.newRow now doc) = .error fault) :
    (db.create now model (.obj doc)).result = .error (.storage fault) ∧
      (db.create now model (.obj doc)).store = db.store := by
  have hcreate := db.create_eq model now doc
  rw [Store.insert_of_table ht, Table.insert_of_newId_error hid] at hcreate
  exact Prod.mk.inj hcreate

/-- The key found for the row that is made of a document is the next number when the document brings none. -/
theorem newId_newRow_of_null {t : Table} {doc : Members}
    (h : (model.created now doc primaryKey).getD .null = .null) :
    t.newId (model.newRow now doc) = .ok (t.lastId + 1) := by
  refine Table.newId_of_isNull (Json.isNull_iff.mpr ?_)
  rwa [Members.getD, model.get?_newRow]

/-- What making rows through a model promises. -/
structure CreatesRows (db : Database) (model : Model) (now : Calendar.Instant) : Prop where
  /-- The row that is given back has been put last in the table of the model, and no other table has changed. It
  is led by a number of 64 bits that leads no row of the table so far, and it has in every other column what a
  new row has, each column once. -/
  stored : ∀ doc row, (db.create now model doc).result = .ok row →
    ∃ members t after, doc = .obj members ∧ db.store.tables.get? model.table = some t ∧
      (db.create now model doc).store.tables.get? model.table = some after ∧ after.rows = t.rows ++ [row] ∧
      (∀ other ≠ model.table,
        (db.create now model doc).store.tables.get? other = db.store.tables.get? other) ∧
      (∃ id ≤ Whole.greatest, row.head? = some (primaryKey, .ofNat id)) ∧
      (∀ old ∈ t.rows, old.getD primaryKey ≠ row.getD primaryKey) ∧
      row.names.Nodup ∧ ∀ column ≠ primaryKey, row.get? column = model.created now members column
  /-- The primary key that a new row has by its document is honoured when it is a number of 64 bits that leads
  no row of the table, and only then. -/
  honoured : ∀ members, ∀ t ∈ db.store.tables.get? model.table,
    (∃ row, (db.create now model (.obj members)).result = .ok row ∧
        model.created now members primaryKey = some (row.getD primaryKey)) ↔
      ∃ id ≤ Whole.greatest, model.created now members primaryKey = some (.ofNat id) ∧
        ∀ old ∈ t.rows, old.getD primaryKey ≠ .ofNat id
  /-- Where a new row has no primary key by its document, or null, the next number is given to it. -/
  numbered : ∀ members, ∀ t ∈ db.store.tables.get? model.table,
    (model.created now members primaryKey).getD .null = .null →
      ∃ row, (db.create now model (.obj members)).result = .ok row ∧
        row.getD primaryKey = .ofNat (t.lastId + 1)
  /-- A primary key that is not declared is ignored. -/
  ignored : model.properties.get? primaryKey = none → ∀ (members : Members) (key : Json),
    db.create now model (.obj (members.insert primaryKey key)) = db.create now model (.obj members)

/-- The row that is given back, the table that it is put into, and the key that is found for it. -/
theorem create_eq_ok {doc : Json} {row : Row} (h : (db.create now model doc).result = .ok row) :
    ∃ members t id, doc = .obj members ∧ db.store.tables.get? model.table = some t ∧
      t.newId (model.newRow now members) = .ok id ∧ row = Table.stored id (model.newRow now members) ∧
      (db.create now model doc).store =
        db.store.withTable model.table ⟨t.rows ++ [row], max t.lastId id⟩ := by
  obtain ⟨members, t, rfl, ht⟩ := db.exists_table_of_create model now h
  cases hid : t.newId (model.newRow now members) with
  | error fault => cases h.symm.trans (db.create_of_newId_error model now ht hid).1
  | ok id =>
    obtain ⟨hresult, hstore⟩ := db.create_of_newId model now ht hid
    obtain rfl := Except.ok.inj (h.symm.trans hresult)
    exact ⟨members, t, id, rfl, ht, hid, rfl, hstore⟩

/-- In a table that satisfies the invariant and has room for one more key, rows are made as promised. -/
theorem createsRows (hkeyed : ∀ t ∈ db.store.tables.get? model.table, t.Keyed ∧ t.lastId < Whole.greatest) :
    db.CreatesRows model now := by
  constructor
  · intro doc row h
    obtain ⟨members, t, id, hdoc, ht, hid, rfl, hstore⟩ := db.create_eq_ok model now h
    obtain ⟨hle, hnew⟩ := (hkeyed t ht).1.newId_unused (hkeyed t ht).2 hid
    have hafter := Store.get?_withTable db.store model.table
      ⟨t.rows ++ [Table.stored id (model.newRow now members)], max t.lastId id⟩ model.table
    rw [← hstore, if_pos rfl] at hafter
    refine ⟨members, t, _, hdoc, ht, hafter, rfl, fun other hother => ?_, ⟨id, hle, rfl⟩, ?_,
      Table.nodup_names_stored id (model.nodup_names_newRow now members), fun column hcolumn => ?_⟩
    · rw [hstore, Store.get?_withTable, if_neg hother.symm]
    · rwa [Table.getD_stored]
    · rw [Table.get?_stored, if_neg hcolumn, model.get?_newRow]
  · intro members t ht
    constructor
    · rintro ⟨row, hresult, hkey⟩
      obtain ⟨_, t', id, hdoc, ht', hid, rfl, -⟩ := db.create_eq_ok model now hresult
      obtain rfl := Json.obj.inj hdoc
      obtain rfl := Option.some.inj (ht.symm.trans ht')
      obtain ⟨hle, hnew⟩ := (hkeyed t ht).1.newId_unused (hkeyed t ht).2 hid
      exact ⟨id, hle, by rw [hkey, Table.getD_stored], hnew⟩
    · rintro ⟨id, hle, hkey, hnew⟩
      have hgiven : (model.newRow now members).getD primaryKey = .ofNat id := by
        rw [Members.getD, model.get?_newRow, hkey, Option.getD_some]
      have hid := (hkeyed t ht).1.newId_of_unused hle hgiven hnew
      exact ⟨_, (db.create_of_newId model now ht hid).1, by rw [hkey, Table.getD_stored]⟩
  · intro members t ht hnull
    have hid := newId_newRow_of_null model now (t := t) hnull
    exact ⟨_, (db.create_of_newId model now ht hid).1, Table.getD_stored ..⟩
  · intro hundeclared members key
    simp only [create, documentMembers, model.coerce_insert hundeclared]

/-- Whatever was done through models to a store that was empty at first: as long as the counter of the table of a
model is not at its end, making rows through the model stores what it gives back. No operation sets a counter back,
so that the counter of this table was not at its end before either. Of the operations on other tables those are meant
that a counter of 64 bits can take too, which add no row without a key when the counter is `Whole.greatest`. -/
theorem create_stores_row (r : Registry) (tables : List String) (options : DatabaseOptions)
    (ops : List (Model × Operation)) (model : Model) (now : Calendar.Instant) :
    let db := (⟨r, .ofTables tables, options⟩ : Database).performedEach ops
    (∀ t ∈ db.store.tables.get? model.table, t.lastId < Whole.greatest) → db.CreatesRows model now := by
  intro db hroom
  have hempty : (Store.ofTables tables).KeyedWithin := fun name t ht _ => Store.keyed_ofTables tables name t ht
  have hkeyed : db.store.KeyedWithin := keyedWithin_performedEach ⟨r, .ofTables tables, options⟩ hempty ops
  refine db.createsRows model now fun t ht => ?_
  exact ⟨hkeyed _ t ht (Nat.le_of_lt (hroom t ht)), hroom t ht⟩

/-- A book with the key `"7"`, brought to a number, and without a title, whose default is a text. -/
theorem create_stores_row_books :
    let key : Property := ⟨"Number", .number, false, none⟩
    let title : Property := ⟨"String", .string, true, some (.literal (.str "Untitled"))⟩
    let book : Model := ⟨"Book", "book", .ofList [(primaryKey, key), ("title", title)], .empty⟩
    let now : Calendar.Instant := ⟨0, 0, 0⟩
    let ops : List (Model × Operation) :=
      [(book, .create now (.obj [("title", .ofNat 1984)])), (book, .updateMany .null (.obj [("title", .null)]))]
    let db := (⟨.empty, .ofTables ["book", "user"], default⟩ : Database).performedEach ops
    (∀ t ∈ db.store.tables.get? book.table, t.lastId < Whole.greatest) ∧
      ((db.create now book (.obj [(primaryKey, .str "7"), ("title", .null)])).result.toOption.any fun row =>
        (Json.obj row).same (.obj [(primaryKey, .ofNat 7), ("title", .str "Untitled")])) = true ∧
      db.CreatesRows book now := by
  intro key title book now ops db
  have hroom : ∀ t ∈ db.store.tables.get? book.table, t.lastId < Whole.greatest := by decide +kernel
  exact ⟨hroom, by decide +kernel, create_stores_row .empty ["book", "user"] default ops book now hroom⟩

end Database

end SchemaQuery
