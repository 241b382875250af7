import SchemaQuery.Proofs.Rows.Operations
import SchemaQuery.Proofs.Storage.PrimaryKeys

/-!
# Rows within the schema

What a table holds beside primary keys has been admitted by a model: a column is a declared property, and its
value is the default of the property, or null where null is allowed, or the form of some value in the type of
the property. Rows are made of admitted entries, new values are admitted entries, and a row that gets new values
keeps its other entries; so operations through registered models keep a store within what the models admit.
-/

namespace SchemaQuery

/-! ## Values that a property admits -/

/-- The shape that the values of a type have. -/
def PropertyType.IsForm : PropertyType → Json → Prop
  | .string, value => ∃ text, value = .str text
  | .number, value => (∃ n, value = .int n) ∨ ∃ x, value = .float x
  | .boolean, value => ∃ b, value = .bool b
  | .date, value => ∃ t : Calendar.Instant, value = .str t.toText
  | .unknown, _ => True

/-- A whole number is a number, within the range of integers and beyond it. -/
theorem Json.isForm_ofInt (n : Int) : PropertyType.IsForm .number (.ofInt n) := by
  rw [ofInt]
  split
  · exact Or.inl ⟨_, rfl⟩
  · exact Or.inr ⟨_, rfl⟩

/-- The number at the start of a text is a number. -/
theorem isForm_numberOfText (text : String) : PropertyType.IsForm .number (numberOfText text) := by
  rw [numberOfText]
  split
  · exact Json.isForm_ofInt 0
  · split
    · exact Json.isForm_ofInt 0
    · next x _ =>
      rw [Binary64.toJson]
      split
      · exact Json.isForm_ofInt x.truncate
      · exact Or.inr ⟨x, rfl⟩

/-- The form of a value in a type has the shape of the type. -/
theorem PropertyType.isForm_of_coerce? {kind : PropertyType} {value form : Json}
    (h : kind.coerce? value = some form) : kind.IsForm form := by
  cases kind with
  | string => exact ⟨value.asText, (Option.some.inj h).symm⟩
  | boolean => exact ⟨value.isTruthy, (Option.some.inj h).symm⟩
  | unknown => trivial
  | date =>
    obtain ⟨t, -, rfl⟩ := Option.map_eq_some_iff.mp h
    exact ⟨t, rfl⟩
  | number =>
    cases value with
    | int n => exact Or.inl ⟨n, (Option.some.inj h).symm⟩
    | float x => exact Or.inr ⟨x, (Option.some.inj h).symm⟩
    | str text =>
      obtain rfl := Option.some.inj h
      exact isForm_numberOfText text
    | null | bool | arr | obj => cases h

/-- The values that a property admits: its default, null unless it is required, and the forms that other
values have in its type. -/
inductive Property.Admits (p : Property) : Json → Prop
  | fallback {default : DefaultValue} (h : p.fallback = some default) (now : Calendar.Instant) :
    Admits p (default.resolve now)
  | null (h : p.required = false) : Admits p .null
  | form {value form : Json} (hnull : value ≠ .null) (h : p.kind.coerce? value = some form)
    (hform : p.kind.IsForm form) : Admits p form

/-- What is kept of a property of a document is admitted. -/
theorem Property.admits_of_coerce {p : Property} {found : Option Json} {value : Json}
    (h : p.coerce found = .kept value) : p.Admits value := by
  rw [coerce.eq_def] at h
  split at h
  · cases h
  · split at h
    · cases h
    · next hrequired =>
      cases h
      exact .null (Bool.eq_false_iff.mpr hrequired)
  · next given hnull =>
    split at h
    · next form hform =>
      cases h
      exact .form hnull hform (PropertyType.isForm_of_coerce? hform)
    · cases h

/-- A model admits an entry whose name is a property that admits the value. -/
def Model.Admits (model : Model) (entry : String × Json) : Prop :=
  ∃ p, model.properties.get? entry.1 = some p ∧ p.Admits entry.2

namespace Model

variable (model : Model)

/-- The declared properties of a document are admitted, each in its type. -/
theorem admits_of_mem_coerce {doc : Members} {entry : String × Json}
    (h : entry ∈ (model.coerce doc).value) : model.Admits entry := by
  obtain ⟨⟨name, result⟩, hresult, hentry⟩ := List.mem_filterMap.mp h
  cases result with
  | kept value =>
    obtain rfl := Option.some.inj hentry
    obtain ⟨⟨other, p⟩, hp, hcoerced⟩ := List.mem_map.mp hresult
    obtain ⟨rfl, hkept⟩ := Prod.mk.inj hcoerced
    exact ⟨p, Dictionary.get?_eq_some_iff.mpr hp, Property.admits_of_coerce hkept⟩
  | absent | dropped => cases hentry

/-- A row of admitted entries still has none but admitted entries with the defaults of properties that it
lacks. -/
theorem admits_of_mem_fillDefaults (now : Calendar.Instant) {row : Members}
    (hrow : ∀ entry ∈ row, model.Admits entry) : ∀ entry ∈ model.fillDefaults now row, model.Admits entry := by
  refine List.foldlRecOn (motive := fun row => ∀ entry ∈ row, model.Admits entry) _ _ hrow ?_
  intro row hrow ⟨name, p⟩ hp entry hentry
  dsimp only at hentry
  split at hentry
  · next fallback hfallback =>
    split at hentry
    · exact hrow entry hentry
    · obtain rfl | hmem := Members.mem_insert hentry
      · exact ⟨p, Dictionary.get?_eq_some_iff.mpr hp, .fallback hfallback now⟩
      · exact hrow entry hmem
  · exact hrow entry hentry

end Model

/-! ## Tables -/

namespace Table

variable {P : String × Json → Prop} {t : Table}

/-- Beside primary keys a table has none but entries of a kind. -/
def Within (t : Table) (P : String × Json → Prop) : Prop :=
  ∀ row ∈ t.rows, ∀ entry ∈ row, entry.1 ≠ primaryKey → P entry

/-- A row of entries of the kind may be added. -/
theorem Within.insert {t' : Table} {row added : Row} (ht : t.Within P) (hrow : ∀ entry ∈ row, P entry)
    (h : t.insert row = .ok (added, t')) : t'.Within P := by
  cases hid : t.newId row with
  | error fault =>
    rw [insert_of_newId_error hid] at h
    cases h
  | ok id =>
    rw [insert_of_newId hid] at h
    obtain ⟨rfl, rfl⟩ := Prod.mk.inj (Except.ok.inj h)
    intro found hfound entry hentry hkey
    rcases List.mem_append.mp hfound with hold | hnew
    · exact ht found hold entry hentry hkey
    · obtain rfl := List.mem_singleton.mp hnew
      rcases List.mem_cons.mp hentry with rfl | hmem
      · exact absurd rfl hkey
      · exact hrow entry (List.mem_filter.mp hmem).1

/-- Entries of the kind may be given to rows as new values. -/
theorem Within.patch (ht : t.Within P) {values : Row} (hvalues : ∀ entry ∈ values, P entry) (clause : Clause)
    (limit : Option Nat) : (t.patch clause values limit).2.Within P := by
  intro row hrow entry hentry hkey
  obtain ⟨old, hold, rfl | rfl⟩ := mem_patchRows hrow
  · exact ht _ hold entry hentry hkey
  · obtain hmem | hmem := Members.mem_extend hentry
    · exact ht old hold entry hmem hkey
    · exact hvalues entry (List.mem_filter.mp hmem).1

/-- Rows may be dropped. -/
theorem Within.delete (ht : t.Within P) (clause : Clause) : (t.delete clause).2.Within P :=
  fun row hrow => ht row (List.mem_filter.mp hrow).1

/-- What may be done through a model that admits none but entries of the kind keeps a table within it. -/
theorem Within.step (ht : t.Within P) {model : Model} (hmodel : ∀ entry, model.Admits entry → P entry)
    {action : StoreStep} (h : model.Writes action) : (t.step action).Within P := by
  cases h with
  | insert now doc =>
    simp only [Table.step]
    cases hinsert : t.insert (model.fillDefaults now (model.coerce doc).value) with
    | error fault => exact ht
    | ok done =>
      refine ht.insert (fun entry hentry => hmodel entry ?_) hinsert
      exact model.admits_of_mem_fillDefaults now (fun _ => model.admits_of_mem_coerce) entry hentry
  | patch doc clause limit =>
    exact ht.patch (fun entry hentry => hmodel entry (model.admits_of_mem_coerce hentry)) clause limit
  | delete clause => exact ht.delete clause

end Table

/-! ## Stores -/

/-- Some registered model with a table admits an entry. -/
def Registry.Admits (r : Registry) (table : String) (entry : String × Json) : Prop :=
  ∃ name model, r.models.get? name = some model ∧ model.table = table ∧ model.Admits entry

/-- Every table of a store holds, beside primary keys, what registered models with the table admit. -/
def Registry.Describes (r : Registry) (s : Store) : Prop :=
  ∀ table, ∀ t ∈ s.tables.get? table, t.Within (r.Admits table)

namespace Registry

variable {r : Registry} {s : Store}

/-- A new store holds nothing. -/
theorem describes_ofTables (r : Registry) (names : List String) : r.Describes (.ofTables names) := by
  intro table t ht row hrow
  rw [Store.eq_empty_of_ofTables ht] at hrow
  cases hrow

/-- What may be done through a registered model keeps a store within what registered models admit. -/
theorem Describes.step (h : r.Describes s) {name : String} {model : Model}
    (hmodel : r.models.get? name = some model) {action : StoreStep} (haction : model.Writes action) :
    r.Describes (s.step action) := by
  refine Store.forall_tables_step (fun _ => nofun) h fun table t ht hconcerns => ?_
  refine (h table t ht).step (fun entry hentry => ?_) haction
  exact ⟨name, model, hmodel, (haction.eq_table hconcerns).symm, hentry⟩

/-- A model is found where the name has one. -/
theorem get_eq_ok_iff {name : String} {model : Model} :
    r.get name = .ok model ↔ r.models.get? name = some model := by
  unfold get
  cases r.models.get? name <;> simp

end Registry

/-! ## Runs -/

namespace Database

/-- The database after an operation on the rows of the model of a name; without such a model nothing is done. -/
def performedOn (db : Database) (name : String) (op : Operation) : Database :=
  match db.registry.get name with
  | .ok model => db.performed model op
  | .error _ => db

/-- The database after operations on the rows of models, done in order. -/
def performedAll (db : Database) (ops : List (String × Operation)) : Database :=
  ops.foldl (fun db entry => db.performedOn entry.1 entry.2) db

variable {db : Database}

/-- Operations do not change the registry. -/
theorem registry_performedOn (db : Database) (name : String) (op : Operation) :
    (db.performedOn name op).registry = db.registry := by
  rw [performedOn]
  cases db.registry.get name <;> rfl

/-- An operation through a registered model keeps the store within what registered models admit. -/
theorem describes_performedOn (h : db.registry.Describes db.store) (name : String) (op : Operation) :
    db.registry.Describes (db.performedOn name op).store := by
  rw [performedOn]
  cases hmodel : db.registry.get name with
  | error fault => exact h
  | ok model =>
    change db.registry.Describes (db.perform model op).store
    obtain hkept | ⟨-, action, haction, hstep⟩ := db.perform_takesOne model op
    · rw [hkept]
      exact h
    · rw [hstep]
      exact h.step (Registry.get_eq_ok_iff.mp hmodel) haction

/-- Operations through registered models keep the store within what registered models admit. -/
theorem describes_performedAll (h : db.registry.Describes db.store) (ops : List (String × Operation)) :
    db.registry.Describes (db.performedAll ops).store := by
  induction ops generalizing db with
  | nil => exact h
  | cons entry rest ih =>
    have hregistry := db.registry_performedOn entry.1 entry.2
    rw [← hregistry]
    exact ih (hregistry.symm ▸ describes_performedOn h entry.1 entry.2)

/-- Whatever is done through the models of a registry to a store that is empty at first: beside primary keys the
store holds entries that a registered model with the table admits, each under a declared property and with its
default, with null where null is allowed, or with the form of a value in its type. -/
theorem stored_within_schema (r : Registry) (tables : List String) (options : DatabaseOptions)
    (ops : List (String × Operation)) :
    let db : Database := ⟨r, .ofTables tables, options⟩
    ∀ table, ∀ t ∈ (db.performedAll ops).store.tables.get? table, ∀ row ∈ t.rows, ∀ column value,
      (column, value) ∈ row → column ≠ primaryKey →
      ∃ name model p, r.models.get? name = some model ∧ model.table = table ∧
        model.properties.get? column = some p ∧ p.Admits value := by
  intro db table t ht row hrow column value hentry hcolumn
  have hstart : db.registry.Describes db.store := r.describes_ofTables tables
  have hdescribes := describes_performedAll hstart ops table t ht
  obtain ⟨name, model, hmodel, htable, p, hp, hadmits⟩ := hdescribes row hrow (column, value) hentry hcolumn
  exact ⟨name, model, p, hmodel, htable, hp, hadmits⟩

/-- A book is made without a title and with pages that are not declared, and is then printed, as a number says:
the title is the default and the number has become a truth value. -/
theorem stored_within_schema_books :
    let printed : Property := ⟨"Boolean", .boolean, true, none⟩
    let title : Property := ⟨"String", .string, false, some (.literal (.str "Untitled"))⟩
    let book : Model := ⟨"Book", "book", .ofList [("printed", printed), ("title", title)], .empty⟩
    let r : Registry := ⟨.ofList [("Book", book)], .empty, .empty⟩
    let db : Database := ⟨r, .ofTables ["book"], default⟩
    let ops : List (String × Operation) :=
      [("Book", .create ⟨0, 0, 0⟩ (.obj [("pages", .ofNat 3)])),
        ("Book", .updateMany .null (.obj [("printed", .ofNat 1)])), ("User", .deleteMany .null)]
    let row : Row := [(primaryKey, .ofNat 1), ("title", .str "Untitled"), ("printed", .bool true)]
    (db.performedAll ops).store.tables.get? "book" = some ⟨[row], 1⟩ ∧ ("printed", .bool true) ∈ row ∧
      "printed" ≠ primaryKey ∧ ∃ name model p, r.models.get? name = some model ∧ model.table = "book" ∧
        model.properties.get? "printed" = some p ∧ p.Admits (.bool true) := by
  intro printed title book r db ops row
  have htable : (db.performedAll ops).store.tables.get? "book" = some ⟨[row], 1⟩ := by
    subst ops db r book title printed row
    rfl
  have hmem : ("printed", .bool true) ∈ row := List.mem_of_getLast? rfl
  have hcolumn : "printed" ≠ primaryKey := by decide
  exact ⟨htable, hmem, hcolumn, stored_within_schema r ["book"] default ops "book" _ htable row
    List.mem_cons_self "printed" (.bool true) hmem hcolumn⟩

end Database

end SchemaQuery
