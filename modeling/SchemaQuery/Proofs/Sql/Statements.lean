import Mathlib.Data.List.Forall2
import SchemaQuery.Proofs.Filter.Lowering
import SchemaQuery.Proofs.Sql.Outlining

/-!
# What a reader finds in the SQL of a statement

Tables, columns and operands come from users. The SQL of a statement is put together of words of SQL, of marks
and of quoted names, and operands stand among its values only. So a reader finds in the text just the names of
the statement, one mark for each of its values, and outside of the names nothing that a name or an operand has
a say in.
-/

namespace SchemaQuery

/-! ## What a statement speaks of -/

/-- The values of a condition: the members of a list, none for a null test. -/
def Condition.values (c : Condition) : List Json :=
  match c.op with
  | .isNull | .isNotNull => []
  | .oneOf => c.operand.asArray?.getD []
  | _ => [c.operand]

/-- The names that a condition shows: its column, unless it asks for membership in no values. -/
def Condition.names (c : Condition) : List String :=
  match c.op with
  | .oneOf => if (c.operand.asArray?.getD []).isEmpty then [] else [c.field]
  | _ => [c.field]

/-- The values of a clause from left to right. -/
def Clause.values (c : Clause) : List Json :=
  (conditionsOf c.items).flatMap Condition.values

/-- The names that a clause shows from left to right. -/
def Clause.names (c : Clause) : List String :=
  (conditionsOf c.items).flatMap Condition.names

namespace Statement

/-- The values of a statement: those of its row or its patch, then those of its clause. -/
def values : Statement → List Json
  | select selection => selection.clause.values
  | count _ clause => clause.values
  | insert _ row => row.values
  | update _ clause patch _ => patch.values ++ clause.values
  | delete _ clause => clause.values

/-- The names of a statement in the order of its text. -/
def names : Statement → List String
  | select selection =>
    selection.columns ++ selection.table :: selection.clause.names ++
      selection.order.map OrderBy.column
  | count table clause => table :: clause.names
  | insert table row => table :: row.names
  | update table clause patch _ => table :: patch.names ++ clause.names
  | delete table clause => table :: clause.names

end Statement

/-! ## Other names -/

section Renaming

variable (f : String → String)

/-- A condition on a renamed column. -/
def Condition.rename (c : Condition) : Condition :=
  { c with field := f c.field }

mutual

/-- A step of a clause under other names. -/
def Item.rename : Item → Item
  | .condition combine condition => .condition combine (condition.rename f)
  | .group combine items => .group combine (renameItems items)

/-- Steps of a clause under other names. -/
def renameItems : List Item → List Item
  | [] => []
  | item :: rest => item.rename :: renameItems rest

end

/-- A clause under other names. -/
def Clause.rename (c : Clause) : Clause :=
  ⟨renameItems f c.items⟩

/-- A row under other names. -/
def Members.rename (m : Members) : Members :=
  m.map fun entry => (f entry.1, entry.2)

/-- A statement in which every table and every column has another name. -/
def Statement.rename : Statement → Statement
  | select s => select
      { s with
        table := f s.table
        clause := s.clause.rename f
        columns := s.columns.map f
        order := s.order.map fun entry => { entry with column := f entry.column } }
  | count table clause => count (f table) (clause.rename f)
  | insert table row => insert (f table) (Members.rename f row)
  | update table clause patch limit => update (f table) (clause.rename f) (Members.rename f patch) limit
  | delete table clause => delete (f table) (clause.rename f)

end Renaming

/-! ## Other scalars -/

/-- Whether one value may stand for the other: they are the same, or both are scalars. -/
def Json.Swaps (a b : Json) : Prop :=
  a = b ∨ a.isContainer = false ∧ b.isContainer = false

/-- Whether two conditions differ in scalars only: the operand, or members of the operand. -/
def Condition.Swaps (a b : Condition) : Prop :=
  a.field = b.field ∧ a.op = b.op ∧
    (a.operand.Swaps b.operand ∨
      ∃ values others, a.operand = .arr values ∧ b.operand = .arr others ∧
        values.Forall₂ Json.Swaps others)

mutual

/-- Whether two steps of a clause differ in scalars only. -/
def Item.Swaps : Item → Item → Prop
  | .condition combine a, .condition combine' b => combine = combine' ∧ a.Swaps b
  | .group combine as, .group combine' bs => combine = combine' ∧ ItemsSwap as bs
  | _, _ => False

/-- Whether steps of two clauses differ in scalars only. -/
def ItemsSwap : List Item → List Item → Prop
  | [], [] => True
  | a :: as, b :: bs => a.Swaps b ∧ ItemsSwap as bs
  | _, _ => False

end

/-- Whether two rows differ in scalars only. -/
def Members.Swaps (m other : Members) : Prop :=
  m.Forall₂ (fun a b => a.1 = b.1 ∧ a.2.Swaps b.2) other

/-- Whether two statements differ in scalars only. -/
def Statement.Swaps : Statement → Statement → Prop
  | select s, select t => ItemsSwap s.clause.items t.clause.items ∧ t = { s with clause := t.clause }
  | count table clause, count table' clause' => table = table' ∧ ItemsSwap clause.items clause'.items
  | insert table row, insert table' row' => table = table' ∧ row.Swaps row'
  | update table clause patch limit, update table' clause' patch' limit' =>
    table = table' ∧ ItemsSwap clause.items clause'.items ∧ patch.Swaps patch' ∧ limit = limit'
  | delete table clause, delete table' clause' => table = table' ∧ ItemsSwap clause.items clause'.items
  | _, _ => False

/-! ## Values -/

/-- The values of a condition in SQL. -/
theorem Condition.bindings_sql (c : Condition) : c.sql.bindings = c.values := by
  obtain ⟨field, op, operand⟩ := c
  cases op with
  | oneOf => cases h : operand.asArray?.getD [] <;> simp [sql, values, h, Fragment.ofText]
  | isNull | isNotNull => rfl
  | equal | notEqual | greater | atLeast | less | atMost | like => rfl

mutual

/-- The values of a step are those of its conditions. -/
theorem Item.bindings_sql (item : Item) :
    item.sql.bindings = item.conditions.flatMap Condition.values := by
  match item with
  | .condition _ condition =>
    rw [Item.sql, Item.conditions, List.flatMap_singleton, condition.bindings_sql]
  | .group _ items => simpa [Item.sql, Item.conditions, Fragment.ofText] using bindings_sqlOfItems items

/-- The values of steps are those of their conditions. -/
theorem bindings_sqlOfItems (items : List Item) :
    (sqlOfItems items).bindings = (conditionsOf items).flatMap Condition.values := by
  match items with
  | [] => rfl
  | item :: rest =>
    rw [sqlOfItems, Fragment.bindings_append, item.bindings_sql, bindings_sqlOfRest rest, conditionsOf,
      List.flatMap_append]

/-- The values of steps behind others are those of their conditions. -/
theorem bindings_sqlOfRest (items : List Item) :
    (sqlOfRest items).bindings = (conditionsOf items).flatMap Condition.values := by
  match items with
  | [] => rfl
  | item :: rest =>
    rw [sqlOfRest, Fragment.bindings_append, Fragment.bindings_append, item.bindings_sql,
      bindings_sqlOfRest rest, conditionsOf, List.flatMap_append]
    rfl

end

/-- The values of a clause behind `where`. -/
theorem Clause.bindings_whereClause (c : Clause) : (Sql.whereClause c).bindings = c.values := by
  obtain ⟨items⟩ := c
  cases items with
  | nil => rfl
  | cons item rest => exact bindings_sqlOfItems (item :: rest)

/-- The values of a statement in SQL. -/
theorem Statement.bindings_sql (s : Statement) : s.sql.bindings = s.values := by
  cases s with
  | select s =>
    change [] ++ (Sql.whereClause s.clause).bindings ++ [] = s.clause.values
    rw [List.append_nil, List.nil_append, Clause.bindings_whereClause]
  | count _ clause | delete _ clause => exact clause.bindings_whereClause
  | insert => rfl
  | update _ clause patch _ =>
    change [] ++ patch.values ++ (Sql.whereClause clause).bindings ++ [] = patch.values ++ clause.values
    rw [List.append_nil, List.nil_append, Clause.bindings_whereClause]

/-! ## Names -/

open Sql (Piece chars commas)

/-- There are no names among marks. -/
theorem names_marks (values : List Json) :
    (commas (values.map fun _ => chars "?")).filterMap Piece.name? = [] := by
  simp only [Sql.filterMap_name?_commas, List.flatMap_map, Sql.filterMap_name?_chars,
    List.flatMap_eq_nil_iff, implies_true]

/-- The names among the parts of a condition. -/
theorem Condition.names_outline (c : Condition) : c.outline.filterMap Piece.name? = c.names := by
  obtain ⟨field, op, operand⟩ := c
  cases op with
  | oneOf =>
    cases h : operand.asArray?.getD [] with
    | nil => simp [outline, names, h, Sql.filterMap_name?_chars]
    | cons value rest =>
      simp only [outline, names, h, List.filterMap_cons, List.filterMap_append, Sql.filterMap_name?_chars,
        names_marks, Piece.name?]
      rfl
  | isNull | isNotNull | equal | notEqual | greater | atLeast | less | atMost | like =>
    simp [outline, names, Sql.filterMap_name?_chars, Piece.name?]

mutual

/-- The names among the parts of a step are those of its conditions. -/
theorem Item.names_outline (item : Item) :
    item.outline.filterMap Piece.name? = item.conditions.flatMap Condition.names := by
  match item with
  | .condition _ condition => simpa [Item.outline, Item.conditions] using condition.names_outline
  | .group _ items =>
    simpa [Item.outline, Item.conditions, Sql.filterMap_name?_chars] using names_outlineOfItems items

/-- The names among the parts of steps are those of their conditions. -/
theorem names_outlineOfItems (items : List Item) :
    (outlineOfItems items).filterMap Piece.name? = (conditionsOf items).flatMap Condition.names := by
  match items with
  | [] => rfl
  | item :: rest =>
    rw [outlineOfItems, List.filterMap_append, item.names_outline, names_outlineOfRest rest, conditionsOf,
      List.flatMap_append]

/-- The names among the parts of steps behind others are those of their conditions. -/
theorem names_outlineOfRest (items : List Item) :
    (outlineOfRest items).filterMap Piece.name? = (conditionsOf items).flatMap Condition.names := by
  match items with
  | [] => rfl
  | item :: rest =>
    rw [outlineOfRest, List.filterMap_append, Sql.filterMap_name?_chars, List.filterMap_append,
      item.names_outline, names_outlineOfRest rest, conditionsOf, List.flatMap_append, List.nil_append]

end

/-- The names among the parts of a clause. -/
theorem Clause.names_outline (c : Clause) : c.outline.filterMap Piece.name? = c.names := by
  obtain ⟨items⟩ := c
  cases items with
  | nil => rfl
  | cons item rest =>
    change (chars " where " ++ outlineOfItems (item :: rest)).filterMap Piece.name? = _
    rw [List.filterMap_append, Sql.filterMap_name?_chars, List.nil_append, names_outlineOfItems, names]

/-- The names among columns with commas between them, each with more behind it that is no name. -/
theorem names_commas {pieces : String → List Piece}
    (h : ∀ column, (pieces column).filterMap Piece.name? = [column]) (columns : List String) :
    (commas (columns.map pieces)).filterMap Piece.name? = columns := by
  rw [Sql.filterMap_name?_commas, List.flatMap_map]
  simp only [h, List.flatMap_singleton']

/-- The names among the columns to read. -/
theorem names_outlineOfColumns (columns : List String) :
    (outlineOfColumns columns).filterMap Piece.name? = columns := by
  cases columns with
  | nil => exact Sql.filterMap_name?_chars "*"
  | cons column rest => exact names_commas (fun _ => rfl) (column :: rest)

/-- The names among the parts of an order. -/
theorem names_outlineOfOrder (order : List OrderBy) :
    (outlineOfOrder order).filterMap Piece.name? = order.map OrderBy.column := by
  cases order with
  | nil => rfl
  | cons first rest =>
    have hname (o : OrderBy) : o.outline.filterMap Piece.name? = [o.column] := by
      simp only [OrderBy.outline, List.filterMap_cons, Piece.name?, Sql.filterMap_name?_chars]
    change (chars " order by " ++ commas ((first :: rest).map OrderBy.outline)).filterMap _ = _
    rw [List.filterMap_append, Sql.filterMap_name?_chars, Sql.filterMap_name?_commas, List.flatMap_map,
      List.nil_append, List.map_eq_flatMap]
    simp only [hname]

/-- The names among the parts of a statement. -/
theorem Statement.names_outline (s : Statement) : s.outline.filterMap Piece.name? = s.names := by
  have hassign (column : String) :
      (Piece.name column :: chars " = ?").filterMap Piece.name? = [column] := by
    simp only [List.filterMap_cons, Piece.name?, Sql.filterMap_name?_chars]
  have hcolumn (column : String) : [Piece.name column].filterMap Piece.name? = [column] := rfl
  cases s with
  | select s =>
    simp only [outline, names, List.filterMap_append, List.filterMap_cons, Piece.name?,
      Sql.filterMap_name?_chars, names_outlineOfColumns, Clause.names_outline, names_outlineOfOrder,
      List.nil_append, List.append_nil, List.cons_append, List.append_assoc]
  | count table clause | delete table clause =>
    simp only [outline, names, List.filterMap_append, List.filterMap_cons, Piece.name?,
      Sql.filterMap_name?_chars, Clause.names_outline, List.nil_append]
  | insert table row =>
    simp only [outline, names, List.filterMap_append, List.filterMap_cons, Piece.name?,
      Sql.filterMap_name?_chars, names_commas hcolumn, names_marks, List.nil_append, List.append_nil]
  | update table clause patch limit =>
    simp only [outline, names, List.filterMap_append, List.filterMap_cons, Piece.name?,
      Sql.filterMap_name?_chars, names_commas hassign, Clause.names_outline, List.nil_append,
      List.append_nil, List.cons_append]

/-! ## Under other names -/

/-- The parts of a condition under other names. -/
theorem Condition.outline_rename (f : String → String) (c : Condition) :
    (c.rename f).outline = c.outline.map (Piece.rename f) := by
  obtain ⟨field, op, operand⟩ := c
  cases op with
  | oneOf =>
    cases h : operand.asArray?.getD [] with
    | nil => simp only [outline, rename, h, Sql.map_rename_chars]
    | cons value rest =>
      simp only [outline, rename, h, List.map_cons, List.map_append, Sql.map_rename_chars,
        Sql.map_rename_commas, List.map_map, Function.comp_def, Piece.rename]
  | isNull | isNotNull | equal | notEqual | greater | atLeast | less | atMost | like =>
    simp only [outline, rename, List.map_cons, Sql.map_rename_chars, Piece.rename]

/-- A step under other names joins what precedes it as before. -/
theorem Item.combine_rename (f : String → String) (item : Item) :
    (item.rename f).combine = item.combine := by
  cases item <;> rfl

mutual

/-- The parts of a step under other names. -/
theorem Item.outline_rename (f : String → String) (item : Item) :
    (item.rename f).outline = item.outline.map (Piece.rename f) := by
  match item with
  | .condition _ condition => exact condition.outline_rename f
  | .group _ items =>
    simp only [Item.rename, Item.outline, List.map_append, Sql.map_rename_chars,
      outlineOfItems_rename f items]

/-- The parts of steps under other names. -/
theorem outlineOfItems_rename (f : String → String) (items : List Item) :
    outlineOfItems (renameItems f items) = (outlineOfItems items).map (Piece.rename f) := by
  match items with
  | [] => rfl
  | item :: rest =>
    rw [renameItems, outlineOfItems, outlineOfItems, List.map_append, item.outline_rename f,
      outlineOfRest_rename f rest]

/-- The parts of steps behind others under other names. -/
theorem outlineOfRest_rename (f : String → String) (items : List Item) :
    outlineOfRest (renameItems f items) = (outlineOfRest items).map (Piece.rename f) := by
  match items with
  | [] => rfl
  | item :: rest =>
    rw [renameItems, outlineOfRest, outlineOfRest, List.map_append, List.map_append, Sql.map_rename_chars,
      item.combine_rename f, item.outline_rename f, outlineOfRest_rename f rest]

end

/-- The parts of a clause under other names. -/
theorem Clause.outline_rename (f : String → String) (c : Clause) :
    (c.rename f).outline = c.outline.map (Piece.rename f) := by
  obtain ⟨items⟩ := c
  cases items with
  | nil => rfl
  | cons item rest =>
    change chars " where " ++ outlineOfItems (renameItems f (item :: rest)) =
      (chars " where " ++ outlineOfItems (item :: rest)).map (Piece.rename f)
    rw [List.map_append, Sql.map_rename_chars, outlineOfItems_rename]

/-- The columns to read under other names. -/
theorem outlineOfColumns_rename (f : String → String) (columns : List String) :
    outlineOfColumns (columns.map f) = (outlineOfColumns columns).map (Piece.rename f) := by
  cases columns with
  | nil => exact (Sql.map_rename_chars f "*").symm
  | cons column rest =>
    change commas (((column :: rest).map f).map _) = (commas ((column :: rest).map _)).map _
    rw [Sql.map_rename_commas, List.map_map, List.map_map]
    rfl

/-- The parts of an order under other names. -/
theorem outlineOfOrder_rename (f : String → String) (order : List OrderBy) :
    outlineOfOrder (order.map fun entry => { entry with column := f entry.column }) =
      (outlineOfOrder order).map (Piece.rename f) := by
  cases order with
  | nil => rfl
  | cons first rest =>
    have hentry (o : OrderBy) : ({ o with column := f o.column } : OrderBy).outline =
        o.outline.map (Piece.rename f) := by
      simp only [OrderBy.outline, List.map_cons, Sql.map_rename_chars, Piece.rename]
    change chars " order by " ++ commas (((first :: rest).map _).map OrderBy.outline) =
      (chars " order by " ++ commas ((first :: rest).map OrderBy.outline)).map _
    simp only [List.map_append, Sql.map_rename_chars, Sql.map_rename_commas, List.map_map,
      Function.comp_def, hentry]

/-- The parts of a statement under other names. -/
theorem Statement.outline_rename (f : String → String) (s : Statement) :
    (s.rename f).outline = s.outline.map (Piece.rename f) := by
  have hnames (row : Row) : Members.names (Members.rename f row) = row.names.map f := by
    simp only [Members.names, Members.rename, List.map_map, Function.comp_def]
  have hvalues (row : Row) : Members.values (Members.rename f row) = row.values := by
    simp only [Members.values, Members.rename, List.map_map, Function.comp_def]
  cases s with
  | select s =>
    simp only [rename, outline, List.map_append, List.map_cons, Sql.map_rename_chars,
      outlineOfColumns_rename, Clause.outline_rename, outlineOfOrder_rename, Piece.rename]
  | count table clause | delete table clause =>
    simp only [rename, outline, List.map_append, List.map_cons, Sql.map_rename_chars,
      Clause.outline_rename, Piece.rename]
  | insert table row =>
    simp only [rename, outline, List.map_append, List.map_cons, Sql.map_rename_chars,
      Sql.map_rename_commas, hnames, hvalues, List.map_map, Function.comp_def, Piece.rename, List.map_nil]
  | update table clause patch limit =>
    simp only [rename, outline, List.map_append, List.map_cons, Sql.map_rename_chars,
      Sql.map_rename_commas, Clause.outline_rename, hnames, List.map_map, Function.comp_def,
      Piece.rename]

/-! ## With other scalars -/

/-- Values that may stand for one another have as many members. -/
theorem Json.Swaps.length_members {a b : Json} (h : a.Swaps b) :
    (a.asArray?.getD []).length = (b.asArray?.getD []).length := by
  have hscalar {value : Json} (hvalue : value.isContainer = false) : value.asArray? = none := by
    cases value <;> first | rfl | cases hvalue
  obtain rfl | ⟨ha, hb⟩ := h
  · rfl
  · rw [hscalar ha, hscalar hb]

/-- Conditions that differ in scalars have the same parts. -/
theorem Condition.outline_of_swaps {a b : Condition} (h : a.Swaps b) : a.outline = b.outline := by
  obtain ⟨field, op, operand⟩ := a
  obtain ⟨field', op', operand'⟩ := b
  obtain ⟨hfield, hop, hoperand⟩ := h
  obtain rfl : field = field' := hfield
  obtain rfl : op = op' := hop
  have hlength : (operand.asArray?.getD []).length = (operand'.asArray?.getD []).length := by
    obtain hswaps | ⟨values, others, hvalues, hothers, hmembers⟩ := hoperand
    · exact hswaps.length_members
    · obtain rfl : operand = .arr values := hvalues
      obtain rfl : operand' = .arr others := hothers
      exact hmembers.length_eq
  cases op with
  | oneOf =>
    simp only [outline]
    -- What is written for a list depends on the number of its members only.
    cases hvalues : operand.asArray?.getD [] with
    | nil =>
      rw [hvalues] at hlength
      rw [List.length_eq_zero_iff.mp hlength.symm]
    | cons value rest =>
      rw [hvalues] at hlength
      obtain ⟨other, others, hothers⟩ := List.exists_cons_of_length_eq_add_one hlength.symm
      rw [hothers] at hlength ⊢
      simp only [List.map_const', hlength]
  | isNull | isNotNull | equal | notEqual | greater | atLeast | less | atMost | like => rfl

/-- Steps that differ in scalars join what precedes them alike. -/
theorem Item.combine_of_swaps {a b : Item} (h : a.Swaps b) : a.combine = b.combine := by
  cases a <;> cases b <;> first | exact h.1 | exact h.elim

mutual

/-- Steps that differ in scalars have the same parts. -/
theorem Item.outline_of_swaps {a b : Item} (h : a.Swaps b) : a.outline = b.outline := by
  match a, b with
  | .condition _ _, .condition _ _ => exact Condition.outline_of_swaps h.2
  | .group _ as, .group _ bs => rw [Item.outline, Item.outline, outlineOfItems_of_swap h.2]
  | .condition _ _, .group _ _ => exact h.elim
  | .group _ _, .condition _ _ => exact h.elim

/-- Rows of steps that differ in scalars have the same parts. -/
theorem outlineOfItems_of_swap {as bs : List Item} (h : ItemsSwap as bs) :
    outlineOfItems as = outlineOfItems bs := by
  match as, bs with
  | [], [] => rfl
  | a :: as, b :: bs =>
    rw [outlineOfItems, outlineOfItems, Item.outline_of_swaps h.1, outlineOfRest_of_swap h.2]
  | [], _ :: _ => exact h.elim
  | _ :: _, [] => exact h.elim

/-- Rows of steps behind others that differ in scalars have the same parts. -/
theorem outlineOfRest_of_swap {as bs : List Item} (h : ItemsSwap as bs) :
    outlineOfRest as = outlineOfRest bs := by
  match as, bs with
  | [], [] => rfl
  | a :: as, b :: bs =>
    rw [outlineOfRest, outlineOfRest, Item.combine_of_swaps h.1, Item.outline_of_swaps h.1,
      outlineOfRest_of_swap h.2]
  | [], _ :: _ => exact h.elim
  | _ :: _, [] => exact h.elim

end

/-- Clauses that differ in scalars have the same parts. -/
theorem Clause.outline_of_swap {a b : Clause} (h : ItemsSwap a.items b.items) :
    a.outline = b.outline := by
  obtain ⟨as⟩ := a
  obtain ⟨bs⟩ := b
  have hitems := outlineOfItems_of_swap h
  match as, bs with
  | [], [] => rfl
  | a :: as, b :: bs => exact congrArg (chars " where " ++ ·) hitems
  | [], _ :: _ => exact h.elim
  | _ :: _, [] => exact h.elim

/-- Rows that differ in scalars have the same columns. -/
theorem Members.names_of_swaps {m other : Members} (h : m.Swaps other) : m.names = other.names := by
  induction h with
  | nil => rfl
  | cons hentry _ ih => exact congrArg₂ List.cons hentry.1 ih

/-- Statements that differ in scalars have the same parts. -/
theorem Statement.outline_of_swaps {s t : Statement} (h : s.Swaps t) : s.outline = t.outline := by
  match s, t with
  | select s, select t =>
    obtain ⟨hclause, ht⟩ := h
    rw [outline, Clause.outline_of_swap hclause, ht, outline]
  | count table clause, count _ clause' =>
    obtain ⟨rfl, hclause⟩ := h
    rw [outline, outline, Clause.outline_of_swap hclause]
  | insert table row, insert _ row' =>
    obtain ⟨rfl, hrow⟩ := h
    have hlength : row.values.length = row'.values.length := by
      simpa only [Members.values, List.length_map] using hrow.length_eq
    simp only [outline, Members.names_of_swaps hrow, List.map_const', hlength]
  | update table clause patch limit, update _ clause' patch' _ =>
    obtain ⟨rfl, hclause, hpatch, rfl⟩ := h
    rw [outline, outline, Clause.outline_of_swap hclause, Members.names_of_swaps hpatch]
  | delete table clause, delete _ clause' =>
    obtain ⟨rfl, hclause⟩ := h
    rw [outline, outline, Clause.outline_of_swap hclause]

/-! ## The reader and the statement -/

/-- What the SQL of a statement is to a reader. -/
structure Statement.ReadsBack (s : Statement) : Prop where
  /-- The text does not end inside of an identifier. -/
  closed : (Sql.scan s.sql.text).isSome
  /-- There are as many marks outside of identifiers as there are values. -/
  marks : (Sql.outside s.sql.text).map (·.count (some '?')) = some s.sql.bindings.length
  /-- The values are those of the row or the patch, then those of the clause from left to right. -/
  values : s.sql.bindings = s.values
  /-- The names in the text are the names of the statement, in order. -/
  names : Sql.namesIn s.sql.text = some s.names
  /-- Other names with as many dots leave everything outside of identifiers as it is. -/
  renamed : ∀ f : String → String, (∀ name ∈ s.names, Sql.dots (f name) = Sql.dots name) →
    Sql.outside (s.rename f).sql.text = Sql.outside s.sql.text
  /-- Other scalars leave everything outside of identifiers as it is. -/
  swapped : ∀ t : Statement, s.Swaps t → Sql.outside t.sql.text = Sql.outside s.sql.text

/-- A statement is read as its parts. -/
theorem Statement.scan_sql (s : Statement) :
    Sql.scan s.sql.text = some (s.outline.flatMap Piece.lexemes) := by
  rw [Sql.scan, ← s.outlines.written, Sql.scanFrom_written s.outlines.separated]

/-- What a statement shows outside of identifiers is what its parts show. -/
theorem Statement.outside_sql (s : Statement) :
    Sql.outside s.sql.text = some (s.outline.flatMap Piece.outside) := by
  rw [Sql.outside, s.scan_sql, Option.map_some, Sql.map_outside_lexemes]

/-- No statement lets a name or a value into its SQL: a reader finds the names of the statement as they are
and a mark for each of its values, and everything else in the text is the same for all names with as many
dots and for all scalars. -/
theorem Statement.sql_reads_back (s : Statement) : s.ReadsBack where
  closed := by rw [s.scan_sql]; rfl
  marks := by
    rw [s.outside_sql, Option.map_some, Sql.count_outside _ (by decide), s.outlines.marks]
  values := s.bindings_sql
  names := by
    rw [Sql.namesIn, s.scan_sql, Option.map_some, Sql.namesFrom_lexemes s.outlines.separated,
      s.names_outline]
  renamed f hdots := by
    rw [Statement.outside_sql, s.outside_sql, s.outline_rename f,
      Sql.flatMap_outside_rename (s.names_outline ▸ hdots)]
  swapped t hswaps := by
    rw [t.outside_sql, s.outside_sql, s.outline_of_swaps hswaps]

end SchemaQuery
