import SchemaQuery.Proofs.Query.NestedLoading

/-!
# Fetching the columns that are needed

A request that asks for columns fetches these, the columns by which its relations are followed, and no others.
Rows that agree on the fetched columns are shown the same under every relation, one after another, and in the
end the rows are cut to columns on which they agree. So the request gives, row for row, what it gives when every
column is fetched and the rows are cut last.
-/

namespace SchemaQuery

/-! ## Results that correspond -/

/-- Whether two computations fail alike, or give results that belong together. -/
def Corresponds {α β : Type} (related : α → β → Prop) : Except QueryError α → Except QueryError β → Prop
  | .ok a, .ok b => related a b
  | .error fault, .error fault' => fault = fault'
  | _, _ => False

section Correspondence

variable {α β α' β' : Type} {related : α → β → Prop} {related' : α' → β' → Prop}

/-- Corresponding computations with corresponding computations behind them correspond. -/
theorem Corresponds.bind {x : Except QueryError α} {y : Except QueryError β} (h : Corresponds related x y)
    {f : α → Except QueryError α'} {g : β → Except QueryError β'}
    (hnext : ∀ a b, related a b → Corresponds related' (f a) (g b)) :
    Corresponds related' (x >>= f) (y >>= g) := by
  cases x with
  | error fault =>
    cases y with
    | error fault' => exact h
    | ok b => exact h.elim
  | ok a =>
    cases y with
    | error fault' => exact h.elim
    | ok b => exact hnext a b h

/-- Results that belong together in one way may do so in another. -/
theorem Corresponds.imp {related' : α → β → Prop} {x : Except QueryError α} {y : Except QueryError β}
    (h : Corresponds related x y) (hrelated : ∀ a b, related a b → related' a b) :
    Corresponds related' x y := by
  cases x with
  | error fault =>
    cases y with
    | error fault' => exact h
    | ok b => exact h.elim
  | ok a =>
    cases y with
    | error fault' => exact h.elim
    | ok b => exact hrelated a b h

/-- One computation with corresponding computations behind it corresponds. -/
theorem Corresponds.after (x : Except QueryError α) {f : α → Except QueryError α'}
    {g : α → Except QueryError β'} (hnext : ∀ a, Corresponds related' (f a) (g a)) :
    Corresponds related' (x >>= f) (x >>= g) := by
  cases x with
  | error fault => exact rfl
  | ok a => exact hnext a

/-- Corresponding computations correspond when their results are changed. -/
theorem Corresponds.map {x : Except QueryError α} {y : Except QueryError β} (h : Corresponds related x y)
    {f : α → α'} {g : β → β'} (hnext : ∀ a b, related a b → related' (f a) (g b)) :
    Corresponds related' (x.map f) (y.map g) :=
  h.bind (f := fun a => .ok (f a)) (g := fun b => .ok (g b)) hnext

/-- A computation that corresponds to one that gives a result gives one that belongs to it. -/
theorem Corresponds.exists_right {y : Except QueryError β} {a : α} (h : Corresponds related (.ok a) y) :
    ∃ b, y = .ok b ∧ related a b := by
  cases y with
  | error fault => exact h.elim
  | ok b => exact ⟨b, rfl, h⟩

/-- A computation to which one corresponds that gives a result gives one that belongs to it. -/
theorem Corresponds.exists_left {x : Except QueryError α} {b : β} (h : Corresponds related x (.ok b)) :
    ∃ a, x = .ok a ∧ related a b := by
  cases x with
  | error fault => exact h.elim
  | ok a => exact ⟨a, rfl, h⟩

end Correspondence

/-- Whether two rows are the same as maps: the order of the columns does not count. -/
def Members.Equiv (a b : Members) : Prop :=
  ∀ name, a.get? name = b.get? name

/-- Whether two outputs give, row for row, rows that are the same as maps. -/
inductive Output.SameRows : Output → Output → Prop
  | rows {a b : List Row} (h : a.Forall₂ Members.Equiv b) : SameRows (.rows a) (.rows b)
  | row {a b : Option Row} (h : Option.Rel Members.Equiv a b) : SameRows (.row a) (.row b)

/-- Whether two ranges give, row for row, rows that are the same as maps, out of as many rows. -/
structure Page.SameRows (a b : Page) : Prop where
  rows : a.rows.Forall₂ Members.Equiv b.rows
  total : a.total = b.total

/-! ## Loading into rows that agree -/

namespace Load

/-- Whether two rows agree on some columns. -/
def AgreeOn (columns : List String) (a b : Row) : Prop :=
  ∀ column ∈ columns, a.get? column = b.get? column

variable {registry : Registry} {store : Store} {model : Model} {columns : List String}
  {rows rows' : List Row}

/-- Rows that agree on more columns agree on fewer. -/
theorem AgreeOn.mono {more : List String} {a b : Row} (h : AgreeOn more a b)
    (hsub : ∀ column ∈ columns, column ∈ more) : AgreeOn columns a b :=
  fun column hcolumn => h column (hsub column hcolumn)

/-- Rows that agree on a column have the same keys in it. -/
theorem distinctKeys_eq_of_agree (h : rows.Forall₂ (AgreeOn columns) rows') {column : String}
    (hcolumn : column ∈ columns) : distinctKeys column rows = distinctKeys column rows' := by
  change rows.foldl (keepKey column) [] = rows'.foldl (keepKey column) []
  generalize ([] : List Json) = keys
  induction h generalizing keys with
  | nil => rfl
  | @cons a b _ _ hab _ ih =>
    have hsame : a.getD column = b.getD column := congrArg (·.getD .null) (hab column hcolumn)
    have hkept : keepKey column keys a = keepKey column keys b := by rw [keepKey, keepKey, hsame]
    rw [List.foldl_cons, List.foldl_cons, hkept]
    exact ih _

/-- Rows that agree on the column a relation is followed by agree on what is attached, too. -/
theorem attach_agreeOn {relation : Relation} (hkey : relation.sourceKey ∈ columns) (name : String)
    (related : List Row) {a b : Row} (h : AgreeOn columns a b) :
    AgreeOn (name :: columns) (attach relation name related a) (attach relation name related b) := by
  intro column hcolumn
  by_cases hname : column = name
  · have hsame : a.getD relation.sourceKey = b.getD relation.sourceKey :=
      congrArg (·.getD .null) (h _ hkey)
    rw [hname, get?_attach_self, get?_attach_self, hsame]
  · rw [get?_attach related a hname, get?_attach related b hname]
    exact h column ((List.mem_cons.mp hcolumn).resolve_left hname)

/-- Loading a relation into rows that agree on the column it is followed by fails alike, or gives rows that
agree on what is attached, too. -/
theorem loadNode_corresponds (node : PopulateNode)
    (hkey : ∀ relation ∈ model.relations.get? node.name, relation.sourceKey ∈ columns)
    (h : rows.Forall₂ (AgreeOn columns) rows') :
    Corresponds (List.Forall₂ (AgreeOn (node.name :: columns)))
      (loadNode registry store model node rows) (loadNode registry store model node rows') := by
  obtain ⟨name, children⟩ := node
  rw [loadNode, loadNode]
  cases hrelation : model.relations.get? name with
  | none =>
    simp only [Load.relation, hrelation]
    exact rfl
  | some relation =>
    have hsource := hkey relation hrelation
    have hkeys := distinctKeys_eq_of_agree h hsource
    simp only [Load.relation, hrelation]
    -- What is fetched, and what is loaded below it, is the same for both.
    refine Corresponds.after (modelNamed registry relation.model) fun target => ?_
    rw [hkeys]
    refine Corresponds.after _ fun fetched => Corresponds.after _ fun related => ?_
    change List.Forall₂ _ _ _
    rw [List.forall₂_map_left_iff, List.forall₂_map_right_iff]
    exact h.imp fun a b hab => attach_agreeOn hsource name related hab

/-- Loading relations into rows that agree on the columns they are followed by fails alike, or gives rows that
agree on what is attached, too. -/
theorem loadAll_corresponds (nodes : List PopulateNode)
    (hkeys : ∀ node ∈ nodes, ∀ relation ∈ model.relations.get? node.name, relation.sourceKey ∈ columns)
    (h : rows.Forall₂ (AgreeOn columns) rows') :
    Corresponds (List.Forall₂ (AgreeOn (nodes.map PopulateNode.name ++ columns)))
      (loadAll registry store model nodes rows) (loadAll registry store model nodes rows') := by
  induction nodes generalizing columns rows rows' with
  | nil => exact h
  | cons node rest ih =>
    rw [loadAll, loadAll]
    refine (loadNode_corresponds node (hkeys node List.mem_cons_self) h).bind fun first first' hfirst => ?_
    have hrest := ih (fun other hother relation hrelation =>
      List.mem_cons_of_mem _ (hkeys other (List.mem_cons_of_mem _ hother) relation hrelation)) hfirst
    refine hrest.imp fun loaded loaded' hloaded => hloaded.imp fun a b hab => hab.mono fun column hcolumn => ?_
    simpa [or_left_comm, or_assoc] using hcolumn

end Load

/-! ## The columns that are fetched -/

namespace Projection

variable {p : Projection}

/-- Adding names to a list keeps those that are there and brings in the names. -/
theorem mem_foldl_addName {names more : List String} {name : String} :
    name ∈ more.foldl addName names ↔ name ∈ names ∨ name ∈ more := by
  induction more generalizing names with
  | nil => simp
  | cons first rest ih =>
    have hadded : name ∈ addName names first ↔ name ∈ names ∨ name = first := by
      unfold addName
      split
      · next hthere =>
        refine ⟨Or.inl, fun h => h.elim id fun heq => ?_⟩
        rw [heq]
        simpa using hthere
      · simp
    rw [List.foldl_cons, ih, hadded, List.mem_cons, or_assoc]

/-- If columns are asked for, these are fetched and those that are required. -/
theorem mem_columns_iff (h : p.included ≠ []) {required : List String} {column : String} :
    column ∈ p.columns required ↔ column ∈ p.included ∨ column ∈ required := by
  rw [columns, if_neg (by simpa using h), mem_foldl_addName]

/-- If no columns are asked for, every column is fetched. -/
theorem columns_of_included_nil (h : p.included = []) (required : List String) : p.columns required = [] := by
  rw [columns, h]
  rfl

/-- If columns are asked for, a row keeps none but these and those that are to be kept. -/
theorem mem_of_keeps (h : p.included ≠ []) {keep : List String} {column : String}
    (hkeeps : p.keeps keep column = true) : column ∈ p.included ∨ column ∈ keep := by
  have hsome : p.included.isEmpty = false := by simpa using h
  simp only [keeps, isEmpty, hsome, Bool.false_and, Bool.false_or, Bool.and_eq_true, Bool.or_eq_true] at hkeeps
  exact hkeeps.1.imp List.contains_iff_mem.mp List.contains_iff_mem.mp

/-- Rows that agree on what is asked for and on what is to be kept are cut to the same row. -/
theorem apply_equiv (h : p.included ≠ []) {keep columns : List String} {a b : Row}
    (hagree : Load.AgreeOn columns a b) (hsub : ∀ column, column ∈ p.included ∨ column ∈ keep → column ∈ columns) :
    (p.apply keep a).Equiv (p.apply keep b) := by
  intro column
  rw [apply, apply, Members.get?_filter, Members.get?_filter]
  split
  · next hkeeps => exact hagree column (hsub column (mem_of_keeps h hkeeps))
  · rfl

end Projection

namespace Table

/-- A row that is cut to columns agrees with the row on them. -/
theorem project_agreeOn {columns : List String} (hcolumns : columns ≠ []) (row : Row) :
    Load.AgreeOn columns (project columns row) row := by
  intro column hcolumn
  rw [project, if_neg (by simpa using hcolumns), Members.get?_filter, if_pos (List.contains_iff_mem.mpr hcolumn)]

end Table

/-- A selection of every column. -/
def Selection.whole (s : Selection) : Selection :=
  { s with columns := [] }

namespace Store

variable {s : Store} (selection : Selection)

/-- A selection gives the rows of the selection of every column, cut to its columns. -/
theorem select_eq_whole : s.select selection =
    (s.select selection.whole).map (List.map (Table.project selection.columns)) := by
  have htable : s.table selection.whole.table = s.table selection.table := rfl
  have hproject : Table.project [] = id := rfl
  rw [select, select, htable]
  cases s.table selection.table with
  | error fault => rfl
  | ok table =>
    simp only [Except.map, Table.select, Selection.whole, hproject, List.map_id]

/-- A range of a selection holds the rows of the range of every column, cut to its columns. -/
theorem selectRange_eq_whole (start stop : Nat) : s.selectRange selection start stop =
    (s.selectRange selection.whole start stop).map fun page =>
      { page with rows := page.rows.map (Table.project selection.columns) } := by
  have htable : s.table selection.whole.table = s.table selection.table := rfl
  have hproject : Table.project [] = id := rfl
  rw [selectRange, selectRange, htable]
  cases s.table selection.table with
  | error fault => rfl
  | ok table =>
    simp only [Except.map, Selection.whole, hproject, List.map_id]

end Store

/-! ## Requests -/

/-- The columns by which the relations of a request are followed are required. -/
theorem Request.sourceKey_mem_requiredColumns {r : Request} {node : PopulateNode} (hnode : node ∈ r.populate)
    {relation : Relation} (hrelation : r.model.relations.get? node.name = some relation) :
    relation.sourceKey ∈ r.requiredColumns := by
  refine List.mem_append_left _ (List.mem_filterMap.mpr ⟨node, hnode, ?_⟩)
  rw [hrelation, Option.map_some]

/-- The first of rows and the first of rows that are the same as maps are the same as maps. -/
theorem Request.sameRows_of_forall₂ (r : Request) {a b : List Row} (h : a.Forall₂ Members.Equiv b) :
    Output.SameRows (if r.first then .row a.head? else .rows a) (if r.first then .row b.head? else .rows b) := by
  cases r.first with
  | false => exact .rows h
  | true =>
    cases h with
    | nil => exact .row .none
    | cons hfirst _ => exact .row (.some hfirst)

namespace Database

variable (db : Database) (r : Request)

/-- Rows with every column, with the relations of a request loaded into them, cut to the asked columns last. The
names under which relations are loaded are kept. -/
def finishWhole (rows : List Row) : Except QueryError (List Row) :=
  (Load.loadAll db.registry db.store r.model r.populate rows).map fun rows =>
    rows.map (r.projection.apply (r.populate.map PopulateNode.name))

/-- What a request for rows gives when every column of its selection is fetched. -/
def runWhole : Except QueryError Output :=
  match r.filter.compile with
  | .error fault => .error (.filter fault)
  | .ok tree => do
    Load.checkAll db.registry r.model r.populate
    let rows ← liftStore (db.store.select (r.selection (Clause.ofPredicate tree)).whole)
    let rows ← db.finishWhole r rows
    return if r.first then .row rows.head? else .rows rows

/-- What a request for rows gives on a range when every column of its selection is fetched. -/
def runRangeWhole (start stop : Nat) : Except QueryError Page :=
  match r.filter.compile with
  | .error fault => .error (.filter fault)
  | .ok tree => do
    Load.checkAll db.registry r.model r.populate
    let page ← liftStore (db.store.selectRange (r.selection (Clause.ofPredicate tree)).whole start stop)
    let rows ← db.finishWhole r page.rows
    return { page with rows }

/-- Rows that are cut to the fetched columns are finished as the rows with every column are. -/
theorem finish_corresponds (tree : Option Predicate) (rows : List Row) :
    Corresponds (List.Forall₂ Members.Equiv)
      (db.finish (r.selecting tree) (rows.map (Table.project (r.projection.columns r.requiredColumns))))
      (db.finishWhole r rows) := by
  by_cases hincluded : r.projection.included = []
  · have hproject : Table.project [] = id := rfl
    rw [Projection.columns_of_included_nil hincluded, hproject, List.map_id]
    refine Corresponds.after (Load.loadAll db.registry db.store r.model r.populate rows) fun loaded => ?_
    exact List.forall₂_same.mpr fun row _ column => rfl
  · have hfetched {column : String} :
        column ∈ r.projection.columns r.requiredColumns ↔
          column ∈ r.projection.included ∨ column ∈ r.requiredColumns :=
      Projection.mem_columns_iff hincluded
    obtain ⟨column, hcolumn⟩ := List.exists_mem_of_ne_nil _ hincluded
    have hcolumns : r.projection.columns r.requiredColumns ≠ [] :=
      List.ne_nil_of_mem (hfetched.mpr (Or.inl hcolumn))
    have hagree : (rows.map (Table.project (r.projection.columns r.requiredColumns))).Forall₂
        (Load.AgreeOn (r.projection.columns r.requiredColumns)) rows := by
      rw [List.forall₂_map_left_iff, List.forall₂_same]
      exact fun row _ => Table.project_agreeOn hcolumns row
    refine (Load.loadAll_corresponds r.populate (fun node hnode relation hrelation => ?_) hagree).map
      fun loaded loaded' hloaded => ?_
    · exact hfetched.mpr (Or.inr (Request.sourceKey_mem_requiredColumns hnode hrelation))
    · rw [List.forall₂_map_left_iff, List.forall₂_map_right_iff]
      refine hloaded.imp fun a b hab => Projection.apply_equiv hincluded hab fun column hcolumn => ?_
      exact List.mem_append.mpr (hcolumn.symm.imp id fun hmem => hfetched.mpr (Or.inl hmem))

/-- A request for rows fails as it does when every column is fetched, its relations are loaded and the rows are
cut last, or it gives the same rows, one by one and as maps; and so it does on every range. -/
theorem run_fetches_enough {r : Request} (hkind : r.kind = .select) :
    Corresponds Output.SameRows (db.run r).result (db.runWhole r) ∧
      ∀ start stop, Corresponds Page.SameRows
        (r.compile db.registry >>= fun c => (db.executeRange c start stop).result)
        (db.runRangeWhole r start stop) := by
  rw [run, runWhole, Request.compile_select hkind]
  simp only [runRangeWhole]
  cases r.filter.compile with
  | error fault => exact ⟨rfl, fun _ _ => rfl⟩
  | ok tree =>
    cases Load.checkAll db.registry r.model r.populate with
    | error fault => exact ⟨rfl, fun _ _ => rfl⟩
    | ok checked =>
      dsimp only
      constructor
      · change Corresponds _ (db.execute (r.selecting tree)).result _
        rw [result_execute_select, Store.select_eq_whole]
        cases db.store.select (r.selection (Clause.ofPredicate tree)).whole with
        | error fault => exact rfl
        | ok rows => exact (db.finish_corresponds r tree rows).map fun _ _ => r.sameRows_of_forall₂
      · intro start stop
        change Corresponds _ (db.executeRange (r.selecting tree) start stop).result _
        rw [result_executeRange_select, Store.selectRange_eq_whole]
        cases db.store.selectRange (r.selection (Clause.ofPredicate tree)).whole start stop with
        | error fault => exact rfl
        | ok page => exact (db.finish_corresponds r tree page.rows).map fun _ _ hrows => ⟨hrows, rfl⟩

/-- Books by title, with their authors: the column that leads to the author is fetched and does not show. -/
theorem run_fetches_enough_books :
    let author : Model := ⟨"Author", "author", .empty, .empty⟩
    let plain : Model := ⟨"Book", "book", .empty, .empty⟩
    let relation : Relation := .between .belongsTo "author" plain author "author_id"
    let book : Model := { plain with relations := .ofList [("author", relation)] }
    let registry : Registry := ⟨.ofList [("Author", author), ("Book", book)], .empty, .empty⟩
    let austen : Row := [("id", .ofNat 1), ("name", .str "Austen")]
    let store := (Store.ofTables ["author", "book"]).run
      [.insert "author" austen,
        .insert "book" [("title", .str "Emma"), ("author_id", .ofNat 1), ("year", .ofNat 1815)]]
    let db : Database := ⟨registry, store, default⟩
    let r : Request :=
      { Request.ofKind book .select defaultPageLimit with
        projection := ⟨["title"], ["year"]⟩
        populate := [.node "author" []] }
    r.kind = .select ∧ r.projection.columns r.requiredColumns = ["title", "author_id", "id"] ∧
      ((db.run r).result.toOption.any fun output =>
        output.toJson.same (.arr [.obj [("title", .str "Emma"), ("author", .obj austen)]])) = true ∧
      Corresponds Output.SameRows (db.run r).result (db.runWhole r) := by
  intro author plain relation book registry austen store db r
  exact ⟨rfl, by decide +kernel, by decide +kernel, (db.run_fetches_enough (r := r) rfl).1⟩

end Database

end SchemaQuery
