import SchemaQuery.Proofs.Filter.Meaning
import SchemaQuery.Proofs.Storage.Order
import SchemaQuery.Query.Load

/-!
# Loading relations row by row

What a row is to show under the name of a relation can be said of the row alone: the rows of the other table
whose column equals its key, in the order of primary keys, each with what is to be loaded below. Fetching the
rows for a whole list at once and handing them out gives every row just that: two rows with equal keys share
what is fetched, and nothing is fetched for a row that another row could lose.
-/

namespace SchemaQuery

namespace Load

section Reference

variable (registry : Registry) (store : Store)

/-- The rows of a table that belong to a key, in the order of primary keys. None belong to null. -/
def belonging (table column : String) (key : Json) : List Row :=
  if key.isNull then []
  else
    match store.tables.get? table with
    | none => []
    | some t =>
      (t.rows.filter fun candidate => (candidate.getD column).equals key).mergeSort Table.byPrimaryKey

/-- What a relation shows of the rows that belong to a row: all of them, or the first one. -/
def shown (kind : RelationKind) (rows : List Row) : Json :=
  match kind, rows with
  | .hasMany, _ => .arr (rows.map .obj)
  | .belongsTo, [] => .null
  | .belongsTo, first :: _ => .obj first

mutual

/-- A row with one relation, and all below it, looked up for it alone. -/
def withNode (model : Model) : PopulateNode → Row → Row
  | .node name children, row =>
    match model.relations.get? name with
    | none => row
    | some relation =>
      match registry.models.get? relation.model with
      | none => row
      | some target =>
        let related := belonging store target.table relation.targetKey (row.getD relation.sourceKey)
        row.insert name (shown relation.kind (related.map (withAll target children)))

/-- A row with relations looked up for it alone, one after another. -/
def withAll (model : Model) : List PopulateNode → Row → Row
  | [], row => row
  | node :: rest, row => withAll model rest (withNode model node row)

end

mutual

/-- Whether the model of a relation is registered and its table stored, and so for all below. -/
def nodeStored (model : Model) : PopulateNode → Bool
  | .node name children =>
    (model.relations.get? name).all fun relation =>
      match registry.models.get? relation.model with
      | none => false
      | some target => store.tables.contains target.table && allStored target children

/-- Whether the models of relations are registered and their tables stored, and so for all below. -/
def allStored (model : Model) : List PopulateNode → Bool
  | [] => true
  | node :: rest => nodeStored model node && allStored model rest

end

mutual

/-- Whether nothing is loaded into the column by which a relation is followed, here and below. -/
def nodeKeeps (model : Model) : PopulateNode → Bool
  | .node name children =>
    (model.relations.get? name).all fun relation =>
      children.all (fun child => child.name ≠ relation.targetKey) &&
        (registry.models.get? relation.model).all fun target => allKeep target children

/-- Whether nothing is loaded into the columns by which relations are followed, here and below. -/
def allKeep (model : Model) : List PopulateNode → Bool
  | [] => true
  | node :: rest => nodeKeeps model node && allKeep model rest

end

end Reference

variable {registry : Registry} {store : Store} {model : Model}

/-! ## Fetching for a list of rows -/

/-- Takes in the key of a row, unless it is null or equals one that is kept. -/
def keepKey (column : String) (keys : List Json) (row : Row) : List Json :=
  let key := row.getD column
  if key.isNull || keys.any (·.equals key) then keys else keys ++ [key]

/-- Taking in keys drops none that is kept. -/
theorem mem_foldl_keepKey {column : String} {keys : List Json} {key : Json} (rows : List Row)
    (h : key ∈ keys) : key ∈ rows.foldl (keepKey column) keys := by
  induction rows generalizing keys with
  | nil => exact h
  | cons row rest ih =>
    refine ih ?_
    simp only [keepKey]
    split
    · exact h
    · exact List.mem_append_left _ h

/-- After its row is taken in, a key equals one that is kept, unless it is null. -/
theorem exists_mem_keepKey {column : String} (keys : List Json) {row : Row}
    (hnull : (row.getD column).isNull = false) :
    ∃ key ∈ keepKey column keys row, key.equals (row.getD column) = true := by
  unfold keepKey
  by_cases hany : keys.any (·.equals (row.getD column)) = true
  · obtain ⟨key, hkey, hequals⟩ := List.any_eq_true.mp hany
    exact ⟨key, by simpa [hany] using hkey, hequals⟩
  · exact ⟨row.getD column, by simp [hnull, hany], Json.equals_refl hnull⟩

/-- The key of every row of a list equals one of the distinct keys, unless it is null. -/
theorem exists_mem_distinctKeys {column : String} {rows : List Row} {row : Row} (hrow : row ∈ rows)
    (hnull : (row.getD column).isNull = false) :
    ∃ key ∈ distinctKeys column rows, key.equals (row.getD column) = true := by
  obtain ⟨before, after, rfl⟩ := List.append_of_mem hrow
  obtain ⟨key, hkey, hequals⟩ :=
    exists_mem_keepKey (before.foldl (keepKey column) []) hnull
  refine ⟨key, ?_, hequals⟩
  change key ∈ (before ++ row :: after).foldl (keepKey column) []
  rw [List.foldl_append, List.foldl_cons]
  exact mem_foldl_keepKey after hkey

/-- A clause of one condition holds of the rows that the condition holds of. -/
theorem holds_andWhere_empty (condition : Condition) (row : Row) :
    (Clause.empty.andWhere condition).holds row = condition.holds row := by
  simp [Clause.andWhere, Clause.pushCondition, Clause.empty, Clause.holds, anyRunHolds, Item.holds]

/-- What is fetched: the rows whose column equals one of the keys, in the order of primary keys. -/
theorem fetch_eq {table : String} {t : Table} (ht : store.tables.get? table = some t) (column : String)
    (keys : List Json) : fetch store table column keys =
      .ok ((t.rows.filter fun candidate => keys.any ((candidate.getD column).equals ·)).mergeSort
        Table.byPrimaryKey) := by
  cases keys with
  | nil =>
    have hnone : t.rows.filter (fun _ => false) = [] := List.filter_eq_nil_iff.mpr (by simp)
    simp [fetch, hnone]
  | cons first rest =>
    have hholds : (Clause.empty.andWhere (.oneOf column (first :: rest))).holds =
        fun candidate : Row => (first :: rest).any ((candidate.getD column).equals ·) :=
      funext fun candidate => (holds_andWhere_empty _ candidate).trans (Condition.holds_oneOf ..)
    have hproject : Table.project [] = id := rfl
    have hselect : store.select (selectionOf table column (first :: rest)) =
        .ok (Table.sortRows [⟨primaryKey, .asc⟩]
          (t.rows.filter fun candidate => (first :: rest).any ((candidate.getD column).equals ·))) := by
      rw [Store.select, selectionOf, Selection.ofClause, Store.table_eq_ok_iff.mpr ht, ← hholds]
      simp [Except.map, Table.select, Table.matching, hproject]
    rw [fetch, if_neg (by simp), hselect, Table.sortRows_primaryKey]

/-- Of what is fetched for keys, a row whose key is covered by them is handed what belongs to its key. -/
theorem filter_fetched {table column : String} {t : Table} {keys : List Json} {key : Json}
    (hled : t.LedBy fun _ => True) (ht : store.tables.get? table = some t)
    (hcovered : key.isNull = false → ∃ kept ∈ keys, kept.equals key = true) :
    ((t.rows.filter fun candidate => keys.any ((candidate.getD column).equals ·)).mergeSort
        Table.byPrimaryKey).filter (fun candidate => (candidate.getD column).equals key) =
      belonging store table column key := by
  rw [Table.filter_sortRows hled, List.filter_filter, belonging, ht]
  cases hnull : key.isNull with
  | true =>
    have hnone : t.rows.filter (fun _ => false) = [] := List.filter_eq_nil_iff.mpr (by simp)
    simp [Json.equals_null hnull, hnone]
  | false =>
    obtain ⟨kept, hkept, hequals⟩ := hcovered hnull
    simp only [Bool.false_eq_true, ↓reduceIte]
    congr 1
    refine List.filter_congr fun candidate _ => ?_
    -- What equals the key equals the kept key too.
    cases hlinked : (candidate.getD column).equals key with
    | false => simp
    | true =>
      have hany : keys.any ((candidate.getD column).equals ·) = true :=
        List.any_eq_true.mpr ⟨kept, hkept, Json.equals_trans hlinked (Json.equals_symm hequals)⟩
      simp [hany]

/-! ## Handing out -/

/-- Loading a relation for a row alone leaves the other columns as they are. -/
theorem get?_withNode (node : PopulateNode) (row : Row) {column : String} (h : column ≠ node.name) :
    (withNode registry store model node row).get? column = row.get? column := by
  obtain ⟨name, children⟩ := node
  rw [withNode]
  split
  · rfl
  · split
    · rfl
    · exact (Members.get?_insert ..).trans (if_neg (Ne.symm h))

/-- Loading relations for a row alone leaves the other columns as they are. -/
theorem get?_withAll {nodes : List PopulateNode} (row : Row) {column : String}
    (h : column ∉ nodes.map PopulateNode.name) :
    (withAll registry store model nodes row).get? column = row.get? column := by
  induction nodes generalizing row with
  | nil => rfl
  | cons node rest ih =>
    simp only [List.map_cons, List.mem_cons, not_or] at h
    rw [withAll, ih _ h.2, get?_withNode node row h.1]

/-- What is attached to a row shows the rows that belong to its key, each with what is loaded below. -/
theorem attachment_map {relation : Relation} {related : List Row} {below : Row → Row} (key : Json)
    (hbelow : ∀ row, (below row).getD relation.targetKey = row.getD relation.targetKey) :
    attachment relation (related.map below) key =
      shown relation.kind
        ((related.filter fun candidate => (candidate.getD relation.targetKey).equals key).map below) := by
  have hlinked : (fun candidate : Row => (candidate.getD relation.targetKey).equals key) ∘ below =
      fun candidate => (candidate.getD relation.targetKey).equals key :=
    funext fun candidate => by rw [Function.comp_apply, hbelow]
  unfold attachment
  cases relation.kind with
  | hasMany => simp only [List.filter_map, hlinked, shown]
  | belongsTo =>
    simp only [← List.head?_filter, List.filter_map, hlinked]
    generalize (related.filter _).map below = rows
    cases rows <;> rfl

/-! ## Loading -/

/-- A relation that is checked is one of the model, and what is below it is checked too. -/
theorem checkNode_eq_ok {name : String} {children : List PopulateNode}
    (h : checkNode registry model (.node name children) = .ok ()) :
    ∃ relation, model.relations.get? name = some relation ∧
      ∀ target, registry.models.get? relation.model = some target →
        checkAll registry target children = .ok () := by
  rw [checkNode] at h
  obtain ⟨relation, hrelation, h⟩ := bind_eq_ok_iff.mp h
  refine ⟨relation, ?_, fun target htarget => ?_⟩
  · unfold Load.relation at hrelation
    split at hrelation
    · next hget => rw [hget, Except.ok.inj hrelation]
    · cases hrelation
  · cases children with
    | nil => rfl
    | cons first rest =>
      simpa [modelNamed, htarget, bind, Except.bind] using h

mutual

/-- Loading a relation into rows is looking it up for each row alone. -/
theorem loadNode_eq (hstore : store.Numbered) (model : Model) (node : PopulateNode) (rows : List Row)
    (hcheck : checkNode registry model node = .ok ()) (hstored : nodeStored registry store model node)
    (hkeeps : nodeKeeps registry model node) :
    loadNode registry store model node rows = .ok (rows.map (withNode registry store model node)) := by
  match node with
  | .node name children =>
    obtain ⟨relation, hrelation, hbelow⟩ := checkNode_eq_ok hcheck
    simp only [nodeStored, hrelation, Option.all_some] at hstored
    cases htarget : registry.models.get? relation.model with
    | none => simp [htarget] at hstored
    | some target =>
      simp only [htarget, Bool.and_eq_true] at hstored
      simp only [nodeKeeps, hrelation, htarget, Option.all_some, Bool.and_eq_true] at hkeeps
      obtain ⟨t, ht⟩ := (Dictionary.contains_eq_true_iff ..).mp hstored.1
      have hkept : relation.targetKey ∉ children.map PopulateNode.name := fun hmem => by
        obtain ⟨child, hchild, hname⟩ := List.mem_map.mp hmem
        have hne := List.all_eq_true.mp hkeeps.1 child hchild
        exact absurd hname (by simpa using hne)
      -- One fetch for all rows, and below it one load for all that is fetched.
      rw [loadNode]
      simp only [Load.relation, hrelation, modelNamed, htarget, bind, Except.bind, fetch_eq ht]
      rw [loadAll_eq hstore target children _ (hbelow target htarget) hstored.2 hkeeps.2]
      refine congrArg Except.ok (List.map_congr_left fun row hrow => ?_)
      rw [withNode, attach, attachment_map]
      · simp only [hrelation, htarget]
        rw [filter_fetched (hstore _ t ht) ht (exists_mem_distinctKeys hrow)]
      · exact fun candidate => by rw [Members.getD, get?_withAll candidate hkept]; rfl

/-- Loading relations into rows is looking them up for each row alone. -/
theorem loadAll_eq (hstore : store.Numbered) (model : Model) (nodes : List PopulateNode)
    (rows : List Row) (hcheck : checkAll registry model nodes = .ok ())
    (hstored : allStored registry store model nodes) (hkeeps : allKeep registry model nodes) :
    loadAll registry store model nodes rows = .ok (rows.map (withAll registry store model nodes)) := by
  match nodes with
  | [] =>
    have hid : withAll registry store model [] = id := rfl
    rw [loadAll, hid, List.map_id]
  | node :: rest =>
    rw [checkAll] at hcheck
    obtain ⟨⟨⟩, hnode, hrest⟩ := bind_eq_ok_iff.mp hcheck
    simp only [allStored, Bool.and_eq_true] at hstored
    simp only [allKeep, Bool.and_eq_true] at hkeeps
    rw [loadAll, loadNode_eq hstore model node rows hnode hstored.1 hkeeps.1]
    change loadAll registry store model rest _ = _
    rw [loadAll_eq hstore model rest _ hrest hstored.2 hkeeps.2, List.map_map]
    rfl

end

/-- Loading relations for a whole list of rows gives each row what it is given when the relations are looked
up for it alone, and changes no column but those that the relations are loaded into. The rows of the store are
led by numbers, as every run leaves them. -/
theorem loadAll_row_by_row (hstore : store.Numbered) (model : Model) (nodes : List PopulateNode)
    (hcheck : checkAll registry model nodes = .ok ()) (hstored : allStored registry store model nodes)
    (hkeeps : allKeep registry model nodes) (rows : List Row) :
    loadAll registry store model nodes rows = .ok (rows.map (withAll registry store model nodes)) ∧
      ∀ row : Row, ∀ column ∉ nodes.map PopulateNode.name,
        (withAll registry store model nodes row).get? column = row.get? column :=
  ⟨loadAll_eq hstore model nodes rows hcheck hstored hkeeps, fun row _ h => get?_withAll row h⟩

/-- Books with their authors, looked up for the authors of the books: a key that is given twice, as a number
and as a boolean, and one that is missing. -/
theorem loadAll_row_by_row_books :
    let author : Model := ⟨"Author", "author", .empty, .empty⟩
    let book : Model := ⟨"Book", "book", .empty, .empty⟩
    let authors : Model :=
      { author with relations := .ofList [("books", .between .hasMany "books" author book "author_id")] }
    let books : Model :=
      { book with relations := .ofList [("author", .between .belongsTo "author" book author "author_id")] }
    let registry : Registry := ⟨.ofList [("Author", authors), ("Book", books)], .empty, .empty⟩
    let store := (Store.ofTables ["author", "book"]).run
      [.insert "author" [("name", .str "Austen")],
        .insert "book" [("id", .ofNat 4), ("title", .str "Emma"), ("author_id", .ofNat 1)],
        .insert "book" [("id", .ofNat 2), ("title", .str "Persuasion"), ("author_id", .ofNat 1)]]
    let nodes : List PopulateNode := [.node "books" [.node "author" []]]
    let rows : List Row := [[("id", .ofNat 1)], [("id", .bool true)], [("name", .str "Anonymous")]]
    checkAll registry authors nodes = .ok () ∧ allStored registry store authors nodes = true ∧
      allKeep registry authors nodes = true ∧
      loadAll registry store authors nodes rows =
        .ok (rows.map (withAll registry store authors nodes)) := by
  intro author book authors books registry store nodes rows
  have hcheck : checkAll registry authors nodes = .ok () := by
    have hok : (checkAll registry authors nodes).isOk = true := by decide +kernel
    cases hresult : checkAll registry authors nodes with
    | ok checked => rfl
    | error fault =>
      rw [hresult] at hok
      cases hok
  have hstored : allStored registry store authors nodes = true := by decide +kernel
  have hkeeps : allKeep registry authors nodes = true := by decide +kernel
  exact ⟨hcheck, hstored, hkeeps,
    (loadAll_row_by_row (Store.numbered_run _ _) authors nodes hcheck hstored hkeeps rows).1⟩

end Load

end SchemaQuery
