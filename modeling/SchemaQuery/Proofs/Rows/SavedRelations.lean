import SchemaQuery.Proofs.Query.FetchedColumns
import SchemaQuery.Proofs.Rows.Operations
import SchemaQuery.Proofs.Schema.Coercion
import SchemaQuery.Proofs.Schema.Integrity

/-!
# Rows are saved without their relations

Saving a row reads its primary key and the declared properties of its model. Loading relations into rows changes
the columns of their names and no others, and so does fetching the columns that lead to them. A row that is fetched
with relations is therefore saved as it is without them, if no relation has the name of a property or of the
primary key. What is loaded below a relation is of no account. A relation that has the name of a property takes its
place, and is written into it.
-/

namespace SchemaQuery

/-- Whether saving a row of a model reads a column: the primary key and the declared properties. -/
def Model.Saves (model : Model) (column : String) : Prop :=
  column = primaryKey ∨ (model.properties.get? column).isSome = true

/-- Whether saving one row comes to the same as saving another, in every database: the result, the store and the
signals. -/
def SavedAlike (model : Model) (row other : Row) : Prop :=
  ∀ db : Database, db.save model row = db.save model other

/-- A request without the relations that it loads. -/
def Request.unpopulated (r : Request) : Request :=
  { r with populate := [] }

/-! ## Saving -/

/-- Rows that agree on the columns that saving reads are saved alike. -/
theorem savedAlike_of_agreeBut {model : Model} {names : List String} {row other : Row}
    (h : Load.AgreeBut names row other) (hnames : ∀ name ∈ names, ¬model.Saves name) :
    SavedAlike model row other := by
  have hread {column : String} (hcolumn : model.Saves column) : row.get? column = other.get? column :=
    h column fun hmem => hnames column hmem hcolumn
  have hkey : row.getD primaryKey = other.getD primaryKey := congrArg (·.getD .null) (hread (Or.inl rfl))
  have hcoerced : model.coerce row = model.coerce other :=
    model.coerce_congr fun _ hdeclared => hread (Or.inr hdeclared)
  intro db
  simp only [Database.save, hkey, hcoerced]

/-! ## Cutting rows -/

/-- Cutting rows to columns keeps them in agreement, whether the names of the other columns are kept or not. -/
theorem Projection.apply_agreeBut (p : Projection) {names : List String} {row other : Row}
    (h : Load.AgreeBut names row other) : Load.AgreeBut names (p.apply names row) (p.apply [] other) := by
  intro column hcolumn
  have hkeeps : p.keeps names column = p.keeps [] column := by
    simp [keeps, hcolumn]
  rw [apply, apply, Members.get?_filter, Members.get?_filter, hkeeps, h column hcolumn]

/-! ## Outputs -/

/-- Rows with which others agree agree with them. -/
theorem Load.forall₂_agree_symm {columns : List String} {rows others : List Row}
    (h : rows.Forall₂ (AgreeBut columns) others) : others.Forall₂ (AgreeBut columns) rows :=
  h.flip.imp fun _ _ hagree column hcolumn => (hagree column hcolumn).symm

/-- The rows of what a request gives: all rows, or the first one. -/
def Request.output (r : Request) (rows : List Row) : Output :=
  if r.first then .row rows.head? else .rows rows

/-- Outputs with rows that are the same as maps. -/
theorem Output.SameRows.toRows {output other : Output} (h : Output.SameRows output other) :
    output.toRows.Forall₂ (Load.AgreeBut []) other.toRows := by
  cases h with
  | rows h => exact h.imp fun _ _ hequiv column _ => hequiv column
  | row h =>
    cases h with
    | none => exact .nil
    | some h => exact .cons (fun column _ => h column) .nil

/-- Rows that belong together one by one give outputs of which the rows do. -/
theorem Request.forall₂_toRows_output (r : Request) {related : Row → Row → Prop} {rows others : List Row}
    (h : rows.Forall₂ related others) : (r.output rows).toRows.Forall₂ related (r.output others).toRows := by
  rw [output, output]
  split
  · cases h with
    | nil => exact .nil
    | cons hfirst _ => exact .cons hfirst .nil
  · exact h

namespace Database

variable (db : Database) {r : Request}

/-- Finishing rows that have every column fails only in loading, and changes only the columns of relations. -/
theorem finishWhole_agreeBut {rows cut : List Row} (h : db.finishWhole r rows = .ok cut) :
    cut.Forall₂ (Load.AgreeBut (r.populate.map PopulateNode.name)) (rows.map (r.projection.apply [])) := by
  obtain ⟨loaded, hloaded, rfl⟩ := map_eq_ok_iff.mp h
  rw [List.forall₂_map_left_iff, List.forall₂_map_right_iff]
  exact (Load.loadAll_agree hloaded).imp fun _ _ => r.projection.apply_agreeBut

/-- Without relations, rows that have every column are cut and nothing else. -/
theorem finishWhole_unpopulated (rows : List Row) :
    db.finishWhole r.unpopulated rows = .ok (rows.map (r.projection.apply [])) :=
  rfl

/-- What a request gives when every column is fetched: its filter compiles, its relations exist, the rows are
selected and finished. -/
theorem runWhole_eq_ok_iff {output : Output} : db.runWhole r = .ok output ↔
    ∃ tree rows cut, r.filter.compile = .ok tree ∧ Load.checkAll db.registry r.model r.populate = .ok () ∧
      db.store.select (r.selection (Clause.ofPredicate tree)).whole = .ok rows ∧ db.finishWhole r rows = .ok cut ∧
      output = r.output cut := by
  rw [runWhole]
  cases r.filter.compile with
  | error fault => simp
  | ok tree =>
    constructor
    · intro h
      obtain ⟨⟨⟩, hcheck, h⟩ := bind_eq_ok_iff.mp h
      obtain ⟨rows, hrows, h⟩ := bind_eq_ok_iff.mp h
      obtain ⟨cut, hcut, h⟩ := bind_eq_ok_iff.mp h
      exact ⟨tree, rows, cut, rfl, hcheck, liftStore_eq_ok_iff.mp hrows, hcut, (Except.ok.inj h).symm⟩
    · rintro ⟨found, rows, cut, htree, hcheck, hrows, hcut, rfl⟩
      obtain rfl := Except.ok.inj htree
      refine bind_eq_ok_iff.mpr ⟨(), hcheck, bind_eq_ok_iff.mpr ⟨rows, liftStore_eq_ok_iff.mpr hrows, ?_⟩⟩
      exact bind_eq_ok_iff.mpr ⟨cut, hcut, rfl⟩

/-- Without relations, a request gives what it selects, cut to the asked columns. -/
theorem runWhole_unpopulated_eq_ok_iff {output : Output} : db.runWhole r.unpopulated = .ok output ↔
    ∃ tree rows, r.filter.compile = .ok tree ∧
      db.store.select (r.selection (Clause.ofPredicate tree)).whole = .ok rows ∧
      output = r.output (rows.map (r.projection.apply [])) := by
  rw [runWhole_eq_ok_iff]
  constructor
  · rintro ⟨tree, rows, cut, htree, -, hrows, hcut, rfl⟩
    obtain rfl := Except.ok.inj ((db.finishWhole_unpopulated rows).symm.trans hcut)
    exact ⟨tree, rows, htree, hrows, rfl⟩
  · rintro ⟨tree, rows, htree, hrows, rfl⟩
    exact ⟨tree, rows, _, htree, rfl, hrows, db.finishWhole_unpopulated rows, rfl⟩

/-- What a request gives agrees with what it gives without relations, row by row, on the columns that have not the
name of a relation. -/
theorem run_agreeBut (hkind : r.kind = .select) {populated : Output} (h : (db.run r).result = .ok populated) :
    ∃ plain, (db.run r.unpopulated).result = .ok plain ∧
      populated.toRows.Forall₂ (Load.AgreeBut (r.populate.map PopulateNode.name)) plain.toRows := by
  have hpopulated := (db.run_fetches_enough hkind).1
  have hplain := (db.run_fetches_enough (r := r.unpopulated) hkind).1
  rw [h] at hpopulated
  obtain ⟨whole, hwhole, hsame⟩ := hpopulated.exists_right
  obtain ⟨tree, rows, cut, htree, -, hrows, hcut, rfl⟩ := db.runWhole_eq_ok_iff.mp hwhole
  rw [db.runWhole_unpopulated_eq_ok_iff.mpr ⟨tree, rows, htree, hrows, rfl⟩] at hplain
  obtain ⟨plain, hresult, hsame'⟩ := hplain.exists_left
  refine ⟨plain, hresult, ?_⟩
  have hcutRows := r.forall₂_toRows_output (db.finishWhole_agreeBut hcut)
  simpa using Load.forall₂_agree_trans (Load.forall₂_agree_trans hsame.toRows hcutRows)
    (Load.forall₂_agree_symm hsame'.toRows)

/-- A request that gives rows without relations gives rows with them, if they exist and the tables are there. -/
theorem exists_run_eq_ok (hkind : r.kind = .select) (hcheck : Load.checkAll db.registry r.model r.populate = .ok ())
    (hstored : Load.allStored db.registry db.store r.model r.populate = true) {plain : Output}
    (h : (db.run r.unpopulated).result = .ok plain) : ∃ populated, (db.run r).result = .ok populated := by
  have hplain := (db.run_fetches_enough (r := r.unpopulated) hkind).1
  rw [h] at hplain
  obtain ⟨whole, hwhole, -⟩ := hplain.exists_right
  obtain ⟨tree, rows, htree, hrows, -⟩ := db.runWhole_unpopulated_eq_ok_iff.mp hwhole
  obtain ⟨loaded, hloaded⟩ := Load.exists_loadAll_eq_ok r.model r.populate hcheck hstored rows
  have hcut : db.finishWhole r rows = .ok _ := congrArg (Except.map _) hloaded
  have hpopulated := (db.run_fetches_enough hkind).1
  rw [db.runWhole_eq_ok_iff.mpr ⟨tree, rows, _, htree, hcheck, hrows, hcut, rfl⟩] at hpopulated
  obtain ⟨populated, hresult, -⟩ := hpopulated.exists_left
  exact ⟨populated, hresult⟩

/-- Rows that are fetched with relations are saved alike with those that are fetched without, one by one, if no
relation has the name of a column that saving reads; and they are fetched with relations whenever they are without,
if the relations exist and the tables are there. -/
theorem save_populated (hkind : r.kind = .select) (hnames : ∀ node ∈ r.populate, ¬r.model.Saves node.name) :
    (∀ populated, (db.run r).result = .ok populated → ∃ plain, (db.run r.unpopulated).result = .ok plain ∧
      populated.toRows.Forall₂ (SavedAlike r.model) plain.toRows) ∧
    ∀ plain, (db.run r.unpopulated).result = .ok plain → Load.checkAll db.registry r.model r.populate = .ok () →
      Load.allStored db.registry db.store r.model r.populate = true →
      ∃ populated, (db.run r).result = .ok populated := by
  refine ⟨fun populated h => ?_, fun plain h hcheck hstored => db.exists_run_eq_ok hkind hcheck hstored h⟩
  obtain ⟨plain, hplain, hagree⟩ := db.run_agreeBut hkind h
  refine ⟨plain, hplain, hagree.imp fun row other hrow => savedAlike_of_agreeBut hrow fun name hname => ?_⟩
  obtain ⟨node, hnode, rfl⟩ := List.mem_map.mp hname
  exact hnames node hnode

/-- A book with its author, of which the key alone is a property, and without. -/
theorem save_populated_books :
    let author : Model := ⟨"Author", "author", .empty, .empty⟩
    let plain : Model := ⟨"Book", "book", .ofList [("title", ⟨"String", .string, false, none⟩)], .empty⟩
    let relation : Relation := .between .belongsTo "author" plain author "author_id"
    let book : Model := { plain with relations := .ofList [("author", relation)] }
    let registry : Registry := ⟨.ofList [("Author", author), ("Book", book)], .empty, .empty⟩
    let store := (Store.ofTables ["author", "book"]).run
      [.insert "author" [("name", .str "Austen")], .insert "book" [("title", .str "Emma"), ("author_id", .ofNat 1)]]
    let db : Database := ⟨registry, store, default⟩
    let r : Request := { Request.ofKind book .select defaultPageLimit with populate := [.node "author" []] }
    r.kind = .select ∧ (∀ node ∈ r.populate, ¬r.model.Saves node.name) ∧
      ∃ populated found, (db.run r).result = .ok populated ∧ (db.run r.unpopulated).result = .ok found ∧
        found.size = 1 ∧ populated.toRows.Forall₂ (SavedAlike book) found.toRows := by
  intro author plain relation book registry store db r
  have hnames : ∀ node ∈ r.populate, ¬r.model.Saves node.name := by
    simp only [r, List.forall_mem_singleton, PopulateNode.name, Model.Saves]
    decide +kernel
  have hcheck : Load.checkAll db.registry r.model r.populate = .ok () := by decide +kernel
  have hstored : Load.allStored db.registry db.store r.model r.populate = true := by decide +kernel
  have hsize : ((db.run r.unpopulated).result.toOption.any fun found => found.size == 1) = true := by decide +kernel
  obtain ⟨halike, hfetched⟩ := db.save_populated (r := r) rfl hnames
  obtain ⟨found, hfound, hone⟩ := any_toOption_iff.mp hsize
  obtain ⟨populated, hpopulated⟩ := hfetched found hfound hcheck hstored
  obtain ⟨other, hother, hrows⟩ := halike populated hpopulated
  obtain rfl := Except.ok.inj (hfound.symm.trans hother)
  exact ⟨rfl, hnames, populated, found, hpopulated, hfound, beq_iff_eq.mp hone, hrows⟩

/-- The registry accepts relations that have the name of a property or of the primary key. A book is fetched with
the first, and the text of its author is overwritten; with the second, and what saving it without would write is
not written. -/
theorem save_populated_overwrites :
    let text : PropertyDeclaration := ⟨some "String", false, none⟩
    let changes : List RegistryStep :=
      [.addModel (Definition.named "Author"),
        .register "Book" (some (.ofList [("author", text), ("year", text)])) none
          (some (.ofList [("author", ⟨"Author", "author_id"⟩), ("id", ⟨"Author", "author_id"⟩)])), .resolve]
    let store := (Store.ofTables ["author", "book"]).run
      [.insert "author" [("name", .str "Austen")],
        .insert "book" [("author", .str "A Lady"), ("year", .ofNat 1815), ("author_id", .ofNat 1)]]
    let db : Database := ⟨Registry.empty.run changes, store, default⟩
    ∃ book, db.registry.models.get? "Book" = some book ∧ ∀ name ∈ ["author", primaryKey],
      let r : Request := { db.request book .select with populate := [.node name []] }
      Load.checkAll db.registry book r.populate = .ok () ∧
        ∃ populated plain, (db.run r).result = .ok populated ∧ (db.run r.unpopulated).result = .ok plain ∧
          ¬populated.toRows.Forall₂ (fun row other => (db.save book row).store = (db.save book other).store)
            plain.toRows := by
  intro text changes store db
  let books (s : Store) : String := (Output.rowsToJson ((s.tables.get? "book").getD .empty).rows).compact
  let differs (book : Model) (name : String) : Bool :=
    let r : Request := { db.request book .select with populate := [.node name []] }
    (Load.checkAll db.registry book r.populate).toOption.any fun _ =>
      (db.run r).result.toOption.any fun populated => (db.run r.unpopulated).result.toOption.any fun plain =>
        populated.toRows.map (fun row => books (db.save book row).store) !=
          plain.toRows.map (fun row => books (db.save book row).store)
  have hdiffers : (db.registry.models.get? "Book").any
      (fun book => ["author", primaryKey].all (differs book)) = true := by decide +kernel
  obtain ⟨book, hbook, hboth⟩ := (Option.any_eq_true ..).mp hdiffers
  refine ⟨book, hbook, fun name hname => ?_⟩
  obtain ⟨⟨⟩, hcheck, hrun⟩ := any_toOption_iff.mp (List.all_eq_true.mp hboth name hname)
  obtain ⟨populated, hpopulated, hrun⟩ := any_toOption_iff.mp hrun
  obtain ⟨plain, hplain, htexts⟩ := any_toOption_iff.mp hrun
  refine ⟨hcheck, populated, plain, hpopulated, hplain, fun halike => bne_iff_ne.mp htexts ?_⟩
  rw [← List.forall₂_eq_eq_eq, List.forall₂_map_left_iff, List.forall₂_map_right_iff]
  exact halike.imp fun _ _ heq => congrArg books heq

end Database

end SchemaQuery
