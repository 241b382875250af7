import SchemaQuery.Proofs.Filter.Meaning
import SchemaQuery.Proofs.Json.Binary64
import SchemaQuery.Proofs.Storage.PrimaryKeys

/-!
# Saving a row

A row is saved through the filter for its primary key, and the first row that passes the filter takes the new
values. As long as the filter tells the key apart from the other stored keys, that is the row with the key,
or none. Numbers below 2⁵³ and texts are always told apart. A row that is updated is merged with the document
first, so that the key that counts is the one of the merged row.
-/

namespace SchemaQuery

/-! ## The values to be written -/

/-- The coerced properties of a document have distinct names. -/
theorem Model.nodup_names_coerce (model : Model) (doc : Members) : (model.coerce doc).value.names.Nodup := by
  have hsorted : (model.coerce doc).value.Pairwise fun a b => a.1 < b.1 := by
    refine List.Pairwise.filterMap _ (R := fun a b => a.1 < b.1) ?_ ?_
    · rintro ⟨name, result⟩ ⟨name', result'⟩ hlt entry hentry entry' hentry'
      cases result <;> cases result' <;> simp_all
      rw [← hentry, ← hentry']
      exact hlt
    · exact List.pairwise_map.mpr model.properties.sorted
  refine List.pairwise_map.mpr (hsorted.imp fun {a b} hlt heq => ?_)
  rw [heq] at hlt
  exact String.lt_irrefl _ hlt

namespace Table

/-- New values with distinct names answer first, for every column but the primary key. -/
theorem get?_overlay (row : Row) {patch : Row} (h : patch.names.Nodup) (column : String) :
    (overlay row patch).get? column =
      if column = primaryKey then row.get? column
      else (patch.get? column).or (row.get? column) := by
  have hnames : (Members.names (patch.filter fun entry => entry.1 ≠ primaryKey)).Nodup :=
    h.sublist (List.filter_sublist.map _)
  have hfilter : Members.get? (patch.filter fun entry => entry.1 ≠ primaryKey) column =
      if column = primaryKey then none else patch.get? column := by
    clear h hnames
    induction patch with
    | nil => simp [Members.get?]
    | cons entry rest ih =>
      obtain ⟨name, value⟩ := entry
      by_cases hname : name = primaryKey
      · rw [List.filter_cons_of_neg (by simpa using hname), ih, Members.get?]
        by_cases hcolumn : column = primaryKey
        · rw [if_pos hcolumn, if_pos hcolumn]
        · have hne : name ≠ column := fun heq => hcolumn (heq.symm.trans hname)
          rw [if_neg hcolumn, if_neg hcolumn, if_neg hne]
      · rw [List.filter_cons_of_pos (by simpa using hname), Members.get?, ih, Members.get?]
        by_cases hcolumn : name = column
        · have hne : column ≠ primaryKey := fun heq => hname (hcolumn.trans heq)
          rw [if_pos hcolumn, if_pos hcolumn, if_neg hne]
        · rw [if_neg hcolumn, if_neg hcolumn]
  rw [overlay, Members.get?_extend row hnames, hfilter]
  by_cases hcolumn : column = primaryKey
  · rw [if_pos hcolumn, if_pos hcolumn]
    rfl
  · rw [if_neg hcolumn, if_neg hcolumn]

/-- Rows that a clause holds of none of stay as they are. -/
theorem patchRows_of_none {clause : Clause} {rows : List Row} (patch : Row)
    (h : ∀ row ∈ rows, clause.holds row = false) (limit : Option Nat) :
    patchRows clause patch rows limit = (rows, 0) := by
  induction rows with
  | nil => rfl
  | cons first rest ih =>
    rw [patchRows, ih fun row hrow => h row (List.mem_cons_of_mem _ hrow)]
    simp [h first List.mem_cons_self]

/-- With room for one row, the first row that a clause holds of takes the new values. -/
theorem patchRows_first {clause : Clause} {before after : List Row} {row : Row} (patch : Row)
    (hbefore : ∀ other ∈ before, clause.holds other = false) (hrow : clause.holds row = true) :
    patchRows clause patch (before ++ row :: after) (some 1) =
      (before ++ overlay row patch :: after, 1) := by
  induction before with
  | nil =>
    have hdone : patchRows clause patch after (some 0) = (after, 0) := by
      cases after <;> simp [patchRows]
    simp [patchRows, hrow, hdone]
  | cons first rest ih =>
    rw [List.cons_append, patchRows, ih fun other hother => hbefore other (List.mem_cons_of_mem _ hother)]
    simp [hbefore first List.mem_cons_self]

end Table

/-! ## The filter for a primary key -/

namespace Filter

/-- A row satisfies the filter for a primary key when its own key is what the filter asks for. -/
theorem holds_key_iff (id : Json) (row : Row) :
    Holds row [(primaryKey, id)] ↔ FieldHolds (row.getD primaryKey) id := by
  have hkey : ¬isDisjunctionKey primaryKey = true := by decide
  rw [Holds, Holds, and_true]
  cases id with
  | arr values => rw [EntryHolds, if_neg hkey]
  | null | bool _ | int _ | float _ | str _ | obj _ => simp [EntryHolds, hkey]

/-- What a filter asks for with a count is an equal value. -/
theorem fieldHolds_ofNat (actual : Json) (id : Nat) :
    FieldHolds actual (.ofNat id) ↔ actual.equals (.ofNat id) = true := by
  unfold Json.ofNat Json.ofInt
  split <;> exact Iff.rfl

/-- A count is what a filter asks for with the count. -/
theorem fieldHolds_self (id : Nat) : FieldHolds (.ofNat id) (.ofNat id) := by
  have hnull : (Json.ofNat id).isNull = false :=
    Bool.eq_false_iff.mpr fun h => Json.ofNat_ne_null id (Json.isNull_iff.mp h)
  exact (fieldHolds_ofNat _ id).mpr (Json.equals_refl hnull)

/-- The filter for a count is accepted. -/
theorem compile_ofNat (id : Nat) : ∃ tree, compile [(primaryKey, .ofNat id)] = .ok tree := by
  unfold Json.ofNat Json.ofInt
  split <;> exact ⟨_, rfl⟩

end Filter

namespace Database

variable (db : Database) (model : Model) {row : Row}

/-! ## What saving does -/

/-- A row without primary key is not saved. -/
theorem store_save_of_isNull (h : (row.getD primaryKey).isNull = true) :
    (db.save model row).store = db.store := by
  simp [save, h, fail]

/-- A row without declared properties is not written. -/
theorem store_save_of_nothing (h : (model.coerce row).value = []) :
    (db.save model row).store = db.store := by
  by_cases hnull : (row.getD primaryKey).isNull = true
  · exact db.store_save_of_isNull model hnull
  · simp [save, hnull, h]

/-- A statement that changes rows does to the store what the storage does. -/
theorem execute_update {c : CompiledRequest} {table : String} {clause : Clause} {patch : Row}
    {limit : Option Nat} (h : c.statement = .update table clause patch limit) :
    ((db.execute c).result, (db.execute c).store) =
      match db.store.patch table clause patch limit with
      | .ok (changed, store) => (.ok (.affected changed), store)
      | .error fault => (.error (.storage fault), db.store) := by
  cases hpatch : db.store.patch table clause patch limit <;>
    simp [execute, runStatement, h, hpatch, liftStore, fail, bind, Except.bind, pure, Except.pure]

/-- The request by which a row is written back. -/
def saveRequest (row : Row) : Request :=
  { ((db.request model .update).withPayload (model.coerce row).value).onlyFirst with
    filter := [(primaryKey, row.getD primaryKey)] }

/-- A row with a primary key and declared properties is written back by a request. -/
theorem save_eq_run (hnull : (row.getD primaryKey).isNull = false) (hpatch : (model.coerce row).value ≠ []) :
    db.save model row =
      counted (db.runAfter (model.coerce row).signals (.ok (db.saveRequest model row))) := by
  have hpayload : (model.coerce row).value.isEmpty = false := by simpa using hpatch
  rw [save, if_neg (by simp [hnull]), if_neg (by simp [hpayload])]
  rfl

/-- A row whose primary key makes no filter is not saved. -/
theorem store_save_of_rejected {fault : FilterError}
    (h : Filter.compile [(primaryKey, row.getD primaryKey)] = .error fault) :
    (db.save model row).store = db.store := by
  cases hnull : (row.getD primaryKey).isNull with
  | true => exact db.store_save_of_isNull model hnull
  | false =>
    by_cases hpatch : (model.coerce row).value = []
    · exact db.store_save_of_nothing model hpatch
    · have hcompile : (db.saveRequest model row).compile db.registry = .error (.filter fault) := by
        rw [Request.compile, saveRequest, h]
      rw [db.save_eq_run model hnull hpatch, counted, runAfter, run, hcompile]
      rfl

/-- A row is saved by changing the first row of the table that the filter for its primary key holds of. -/
theorem save_eq {tree : Option Predicate} (hnull : (row.getD primaryKey).isNull = false)
    (hpatch : (model.coerce row).value ≠ [])
    (hfilter : Filter.compile [(primaryKey, row.getD primaryKey)] = .ok tree) :
    ((db.save model row).result, (db.save model row).store) =
      match db.store.patch model.table (.ofPredicate tree) (model.coerce row).value (some 1) with
      | .ok (changed, store) => (.ok changed, store)
      | .error fault => (.error (.storage fault), db.store) := by
  have hpayload : (model.coerce row).value.isEmpty = false := by simpa using hpatch
  let compiled : CompiledRequest :=
    { model, kind := .update, tree,
      statement := .update model.table (.ofPredicate tree) (model.coerce row).value (some 1),
      projection := .empty, populate := [], first := true }
  have hcompile : (db.saveRequest model row).compile db.registry = .ok compiled := by
    rw [Request.compile, saveRequest, hfilter]
    simp only [Request.statement, Request.onlyFirst, Request.withPayload, Database.request,
      Request.ofKind, hpayload, Bool.false_eq_true, if_false]
    rfl
  have hrun : db.run (db.saveRequest model row) = db.execute compiled := by rw [run, hcompile]
  have hexecute := db.execute_update (c := compiled) rfl
  rw [db.save_eq_run model hnull hpatch, counted, runAfter, hrun]
  cases hstored : db.store.patch model.table (.ofPredicate tree) (model.coerce row).value (some 1) with
  | error fault =>
    rw [hstored] at hexecute
    obtain ⟨hresult, hstore⟩ := Prod.mk.inj hexecute
    simp only [hresult, hstore, Except.map]
  | ok changed =>
    rw [hstored] at hexecute
    obtain ⟨hresult, hstore⟩ := Prod.mk.inj hexecute
    simp only [hresult, hstore, Except.map, Output.toCount, Option.getD_some]

/-- A row is saved in the table of its model, if it is there. -/
theorem save_of_table {tree : Option Predicate} {t : Table}
    (ht : db.store.tables.get? model.table = some t) (hnull : (row.getD primaryKey).isNull = false)
    (hpatch : (model.coerce row).value ≠ [])
    (hfilter : Filter.compile [(primaryKey, row.getD primaryKey)] = .ok tree) {rows : List Row}
    {changed : Nat}
    (hrows : Table.patchRows (.ofPredicate tree) (model.coerce row).value t.rows (some 1) =
      (rows, changed)) :
    (db.save model row).result = .ok changed ∧
      (db.save model row).store = db.store.withTable model.table { t with rows } := by
  have hsave := db.save_eq model hnull hpatch hfilter
  rw [Store.patch_of_table ht, Table.patch, hrows] at hsave
  exact Prod.mk.inj hsave

/-- Without the table of its model a row is not saved. -/
theorem store_save_of_no_table (hnone : db.store.tables.get? model.table = none) :
    (db.save model row).store = db.store := by
  cases hfilter : Filter.compile [(primaryKey, row.getD primaryKey)] with
  | error fault => exact db.store_save_of_rejected model hfilter
  | ok tree =>
    cases hnull : (row.getD primaryKey).isNull with
    | true => exact db.store_save_of_isNull model hnull
    | false =>
      by_cases hpatch : (model.coerce row).value = []
      · exact db.store_save_of_nothing model hpatch
      · have hsave := db.save_eq model hnull hpatch hfilter
        have htable : db.store.table model.table = .error (.unknownTable model.table) := by
          simp [Store.table, hnone]
        simp only [Store.patch, htable] at hsave
        exact (Prod.mk.inj hsave).2

end Database

/-! ## Which row is written -/

/-- Whether the filter for a primary key tells it apart: of the stored keys of a table none is what the filter
asks for but the key itself. -/
def Store.TellsApart (s : Store) (table : String) (id : Json) : Prop :=
  ∀ t ∈ s.tables.get? table, ∀ row ∈ t.rows,
    Filter.FieldHolds (row.getD primaryKey) id → row.getD primaryKey = id

/-- A number below 2⁵³ is told apart from the numbers that lead the rows of a store. -/
theorem Store.Numbered.tellsApart {s : Store} (hs : s.Numbered) (table : String) {id : Nat}
    (hid : id < 2 ^ 53) : s.TellsApart table (.ofNat id) := by
  intro t ht row hrow hholds
  obtain ⟨other, -, hhead⟩ := hs table t ht row hrow
  have hother := Table.asNumber?_of_head? hhead
  obtain ⟨x, hx, hkey⟩ := (Json.equals_of_number hother).mp ((Filter.fieldHolds_ofNat _ id).mp hholds)
  rw [Json.asNumber?_ofNat] at hx
  obtain rfl := Option.some.inj hx
  rw [Members.getD_of_head? hhead, (Binary64.key_ofInt_inj hid).mp hkey.symm]

/-- A text is told apart: no number equals it. -/
theorem Store.Numbered.tellsApart_str {s : Store} (hs : s.Numbered) (table text : String) :
    s.TellsApart table (.str text) := by
  intro t ht row hrow hholds
  obtain ⟨other, -, hhead⟩ := hs table t ht row hrow
  obtain ⟨x, hx, -⟩ := (Json.equals_of_number (Table.asNumber?_of_head? hhead)).mp hholds
  cases hx

/-- What writing a row with a primary key does: the row of the table with that key takes the new values, and
nothing else changes. -/
structure TargetsRow (id : Json) (patch : Row) (table : String) (before : Store)
    (outcome : Outcome Nat) : Prop where
  /-- No row changes but one that has the key. -/
  frame : outcome.store = before ∨
    ∃ t, before.tables.get? table = some t ∧ ∃ front row back, t.rows = front ++ row :: back ∧
      row.getD primaryKey = id ∧ outcome.store =
        before.withTable table { t with rows := front ++ Table.overlay row patch :: back }
  /-- If there are new values, the first row that has the key takes them, and counts as changed. -/
  found : patch ≠ [] → ∀ t ∈ before.tables.get? table, ∀ front row back,
    t.rows = front ++ row :: back → row.getD primaryKey = id →
      (∀ other ∈ front, other.getD primaryKey ≠ id) → outcome.result = .ok 1 ∧
        outcome.store = before.withTable table { t with rows := front ++ Table.overlay row patch :: back }
  /-- The new values replace those of their columns, the primary key apart. -/
  overlaid : ∀ (row : Row) column, (Table.overlay row patch).get? column =
    if column = primaryKey then row.get? column else (patch.get? column).or (row.get? column)
  /-- Without a row that has the key nothing changes. -/
  missing : (∀ t ∈ before.tables.get? table, ∀ row ∈ t.rows, row.getD primaryKey ≠ id) →
    outcome.store = before

/-- A list in which a test holds of a member has a first such member. -/
theorem exists_first {α : Type} {test : α → Bool} {values : List α} (h : ∃ value ∈ values, test value) :
    ∃ front value back, values = front ++ value :: back ∧ test value = true ∧
      ∀ other ∈ front, test other = false := by
  obtain ⟨value, hvalue⟩ := Option.isSome_iff_exists.mp (List.find?_isSome.mpr h)
  obtain ⟨htest, front, back, hvalues, hfront⟩ := List.find?_eq_some_iff_append.mp hvalue
  exact ⟨front, value, back, hvalues, htest, fun other hother => by simpa using hfront other hother⟩

/-- In a table of which the filter for the primary key holds of the rows that have the key, saving writes the
first of them. -/
theorem Database.targetsRow_of_table {db : Database} {model : Model} {row : Row} {t : Table}
    {tree : Option Predicate} (ht : db.store.tables.get? model.table = some t)
    (hnull : (row.getD primaryKey).isNull = false) (hpatch : (model.coerce row).value ≠ [])
    (hfilter : Filter.compile [(primaryKey, row.getD primaryKey)] = .ok tree)
    (hholds : ∀ other ∈ t.rows, (Clause.ofPredicate tree).holds other = true ↔
      other.getD primaryKey = row.getD primaryKey) :
    TargetsRow (row.getD primaryKey) (model.coerce row).value model.table db.store
      (db.save model row) := by
  have hfails : ∀ other ∈ t.rows, other.getD primaryKey ≠ row.getD primaryKey →
      (Clause.ofPredicate tree).holds other = false := fun other hother hne =>
    Bool.eq_false_iff.mpr fun h => hne ((hholds other hother).mp h)
  have hfound : ∀ front other back, t.rows = front ++ other :: back →
      other.getD primaryKey = row.getD primaryKey →
      (∀ before ∈ front, before.getD primaryKey ≠ row.getD primaryKey) →
      (db.save model row).result = .ok 1 ∧ (db.save model row).store = db.store.withTable model.table
        { t with rows := front ++ Table.overlay other (model.coerce row).value :: back } := by
    intro front other back hrows hkey hfront
    refine db.save_of_table model ht hnull hpatch hfilter ?_
    rw [hrows]
    refine Table.patchRows_first _ (fun before hbefore => ?_) ?_
    · exact hfails before (hrows ▸ List.mem_append_left _ hbefore) (hfront before hbefore)
    · exact (hholds other (hrows ▸ List.mem_append_right _ List.mem_cons_self)).mpr hkey
  have hmissing : (∀ other ∈ t.rows, other.getD primaryKey ≠ row.getD primaryKey) →
      (db.save model row).store = db.store := by
    intro hnone
    have hrows := Table.patchRows_of_none (model.coerce row).value
      (fun other hother => hfails other hother (hnone other hother)) (some 1)
    rw [(db.save_of_table model ht hnull hpatch hfilter hrows).2]
    exact Store.withTable_of_get? ht
  constructor
  · by_cases hsome : ∃ other ∈ t.rows, (Clause.ofPredicate tree).holds other = true
    · obtain ⟨front, other, back, hrows, hother, hfront⟩ := exists_first hsome
      have hkey := (hholds other (hrows ▸ List.mem_append_right _ List.mem_cons_self)).mp hother
      refine Or.inr ⟨t, ht, front, other, back, hrows, hkey, (hfound front other back hrows hkey ?_).2⟩
      intro before hbefore heq
      have hbeforeHolds := (hholds before (hrows ▸ List.mem_append_left _ hbefore)).mpr heq
      rw [hfront before hbefore] at hbeforeHolds
      cases hbeforeHolds
    · exact Or.inl (hmissing fun other hother heq => hsome ⟨other, hother, (hholds other hother).mpr heq⟩)
  · intro _ t' ht'
    obtain rfl := Option.some.inj (ht.symm.trans ht')
    exact hfound
  · exact fun old => Table.get?_overlay old (model.nodup_names_coerce row)
  · exact fun hnone => hmissing (hnone t ht)

/-- Where nothing is saved, no row with new values may have the key. -/
theorem Database.targetsRow_of_kept {db : Database} {model : Model} {row : Row}
    (hkept : (db.save model row).store = db.store)
    (hnone : (model.coerce row).value ≠ [] → ∀ t ∈ db.store.tables.get? model.table, ∀ other ∈ t.rows,
      other.getD primaryKey ≠ row.getD primaryKey) :
    TargetsRow (row.getD primaryKey) (model.coerce row).value model.table db.store
      (db.save model row) := by
  refine ⟨Or.inl hkept, fun hpatch t ht front other back hrows hkey => ?_, fun old => ?_, fun _ => hkept⟩
  · exact absurd hkey (hnone hpatch t ht other (hrows ▸ List.mem_append_right _ List.mem_cons_self))
  · exact Table.get?_overlay old (model.nodup_names_coerce row)

/-- Saving a row whose primary key is told apart writes the row that has the key. -/
theorem Database.save_targetsRow {db : Database} (hstore : db.store.Numbered) (model : Model) {row : Row}
    (hapart : db.store.TellsApart model.table (row.getD primaryKey)) :
    TargetsRow (row.getD primaryKey) (model.coerce row).value model.table db.store
      (db.save model row) := by
  -- A stored key is a count, which is not null and makes a filter.
  have hnumber : ∀ t ∈ db.store.tables.get? model.table, ∀ other ∈ t.rows,
      other.getD primaryKey = row.getD primaryKey → ∃ number, row.getD primaryKey = .ofNat number := by
    intro t ht other hother heq
    obtain ⟨number, -, hhead⟩ := hstore _ t ht other hother
    exact ⟨number, heq.symm.trans (Members.getD_of_head? hhead)⟩
  cases ht : db.store.tables.get? model.table with
  | none =>
    refine targetsRow_of_kept (db.store_save_of_no_table model ht) fun _ t ht' => ?_
    rw [ht] at ht'
    cases ht'
  | some t =>
    by_cases hpatch : (model.coerce row).value = []
    · exact targetsRow_of_kept (db.store_save_of_nothing model hpatch) fun hne => absurd hpatch hne
    cases hnull : (row.getD primaryKey).isNull with
    | true =>
      refine targetsRow_of_kept (db.store_save_of_isNull model hnull) fun _ t' ht' other hother heq => ?_
      obtain ⟨number, hid⟩ := hnumber t' ht' other hother heq
      exact Json.ofNat_ne_null number (hid.symm.trans (Json.isNull_iff.mp hnull))
    | false =>
      cases hfilter : Filter.compile [(primaryKey, row.getD primaryKey)] with
      | error fault =>
        refine targetsRow_of_kept (db.store_save_of_rejected model hfilter) fun _ t' ht' other hother heq => ?_
        obtain ⟨number, hid⟩ := hnumber t' ht' other hother heq
        obtain ⟨tree, htree⟩ := Filter.compile_ofNat number
        rw [hid, htree] at hfilter
        cases hfilter
      | ok tree =>
        refine targetsRow_of_table ht hnull hpatch hfilter fun other hother => ?_
        rw [Filter.holds_ofPredicate hfilter other, Filter.holds_key_iff]
        refine ⟨hapart t ht other hother, fun heq => ?_⟩
        obtain ⟨number, hid⟩ := hnumber t ht other hother heq
        rw [heq, hid]
        exact Filter.fieldHolds_self number

/-- Saving writes the row that has the primary key of the saved row, and updating the row that has the one of
the merged row, which is the document's where the document gives one; each takes the new values, counts as
changed, and nothing else changes. This is so for every key that its filter tells apart from the other stored
keys, and the numbers below 2⁵³ are such keys, and so are texts. -/
theorem Database.writes_target_one_row {db : Database} (hstore : db.store.Numbered) (model : Model)
    (row : Row) :
    (∀ id < 2 ^ 53, db.store.TellsApart model.table (.ofNat id)) ∧
      (∀ text, db.store.TellsApart model.table (.str text)) ∧
      (db.store.TellsApart model.table (row.getD primaryKey) →
        TargetsRow (row.getD primaryKey) (model.coerce row).value model.table db.store
          (db.save model row)) ∧
      ∀ members : Members,
        (members.names.Nodup → (row.extend members).getD primaryKey =
          (members.get? primaryKey).getD (row.getD primaryKey)) ∧
        (db.store.TellsApart model.table ((row.extend members).getD primaryKey) →
          TargetsRow ((row.extend members).getD primaryKey) (model.coerce (row.extend members)).value
            model.table db.store (db.update model row (.obj members)).2) := by
  refine ⟨fun id hid => hstore.tellsApart model.table hid, hstore.tellsApart_str model.table,
    save_targetsRow hstore model, ?_⟩
  intro members
  refine ⟨fun hnames => ?_, save_targetsRow hstore model⟩
  rw [Members.getD, Members.get?_extend row hnames]
  cases members.get? primaryKey <;> rfl

/-- Two rows, of which the first is saved under a new name, and the second one through the first: the document
that the first is updated with gives the key of the second. -/
theorem Database.writes_target_one_row_merged :
    let model : Model := ⟨"User", "user", .ofList [("name", ⟨"String", .string, false, none⟩)], .empty⟩
    let store := (Store.ofTables ["user"]).run
      [.insert "user" [("name", .str "Ann")], .insert "user" [("name", .str "Bo")]]
    let db : Database := ⟨.empty, store, default⟩
    let ann : Row := [("id", .ofNat 1), ("name", .str "Anna")]
    let doc : Members := [("id", .ofNat 2), ("name", .str "Zoe")]
    store.Numbered ∧ store.TellsApart "user" (.ofNat 1) ∧ store.TellsApart "user" (.ofNat 2) ∧
      TargetsRow (.ofNat 1) (model.coerce ann).value "user" store (db.save model ann) ∧
      TargetsRow (.ofNat 2) (model.coerce (ann.extend doc)).value "user" store
        (db.update model ann (.obj doc)).2 := by
  intro model store db ann doc
  have hstore : db.store.Numbered := Store.numbered_run _ _
  obtain ⟨happart, -, hsave, hupdate⟩ := writes_target_one_row hstore model ann
  have hfirst := happart 1 (by decide)
  have hsecond := happart 2 (by decide)
  exact ⟨hstore, hfirst, hsecond, hsave hfirst, (hupdate doc).2 hsecond⟩

/-- A key that is not told apart does not target its row, and neither does the key that a row had before a
document gave it another: saving a row with the key `true` writes the row with the key 1, and updating the row
with the key 1 may write the row with the key 2. -/
theorem Database.not_targetsRow_of_other_key :
    let model : Model := ⟨"User", "user", .ofList [("name", ⟨"String", .string, false, none⟩)], .empty⟩
    let ann : Row := [("id", .ofNat 1), ("name", .str "Ann")]
    let bo : Row := [("id", .ofNat 2), ("name", .str "Bo")]
    let store : Store := ⟨.ofList [("user", ⟨[ann, bo], 2⟩)]⟩
    let db : Database := ⟨.empty, store, default⟩
    let truth : Row := [("id", .bool true), ("name", .str "Zoe")]
    let doc : Members := [("id", .ofNat 2), ("name", .str "Zoe")]
    ¬TargetsRow (truth.getD primaryKey) (model.coerce truth).value "user" store (db.save model truth) ∧
      ¬TargetsRow (ann.getD primaryKey) (model.coerce (ann.extend doc)).value "user" store
        (db.update model ann (.obj doc)).2 := by
  intro model ann bo store db truth doc
  have htable : store.tables.get? "user" = some ⟨[ann, bo], 2⟩ := rfl
  let zoe (s : Store) : List Bool :=
    ((s.tables.get? "user").getD .empty).rows.map fun row => (row.getD "name").same (.str "Zoe")
  constructor
  · intro htargets
    have hkept := htargets.missing fun t ht row hrow heq => by
      obtain rfl := Option.some.inj (htable.symm.trans ht)
      have hnat := congrArg Json.asNat? heq
      have hcases : row = ann ∨ row = bo := by simpa using hrow
      rcases hcases with rfl | rfl <;> cases hnat
    have hafter : zoe (db.save model truth).store = [true, false] := by decide +kernel
    rw [hkept] at hafter
    exact absurd hafter (by decide +kernel)
  · intro htargets
    have hpatch : (model.coerce (ann.extend doc)).value.isEmpty = false := by decide +kernel
    have hfound := (htargets.found (by simpa using hpatch) _ htable [] ann [bo] rfl rfl (by simp)).2
    have hafter : zoe (db.update model ann (.obj doc)).2.store = [false, true] := by decide +kernel
    rw [hfound] at hafter
    exact absurd hafter (by decide +kernel)

end SchemaQuery
