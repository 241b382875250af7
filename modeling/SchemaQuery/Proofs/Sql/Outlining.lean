import SchemaQuery.Proofs.Sql.Scanning
import SchemaQuery.Storage.Statement

/-!
# What the SQL of a statement is put together of

Six writers take part in the SQL of a statement: for conditions, for steps of a clause, for columns, for an
order, for bounds and for the statement itself. For each of them the parts are written down before anything is
quoted, and the text is shown to be put together of them, with a mark for each value.
-/

namespace SchemaQuery

/-! ## Parts -/

open Sql (Piece Outlines Follows chars commas)

/-- The parts of a condition in SQL. -/
def Condition.outline (c : Condition) : List Piece :=
  match c.op with
  | .isNull | .isNotNull => .name c.field :: chars (" " ++ c.op.sql)
  | .oneOf =>
    match c.operand.asArray?.getD [] with
    | [] => chars "1 = 0"
    | values =>
      .name c.field :: (chars " in (" ++ (commas (values.map fun _ => chars "?") ++ chars ")"))
  | _ => .name c.field :: chars (" " ++ c.op.sql ++ " ?")

mutual

/-- The parts of a step of a clause. -/
def Item.outline : Item → List Piece
  | .condition _ condition => condition.outline
  | .group _ items => chars "(" ++ (outlineOfItems items ++ chars ")")

/-- The parts of steps. -/
def outlineOfItems : List Item → List Piece
  | [] => []
  | item :: rest => item.outline ++ outlineOfRest rest

/-- The parts of steps behind others. -/
def outlineOfRest : List Item → List Piece
  | [] => []
  | item :: rest => chars (" " ++ item.combine.sql ++ " ") ++ (item.outline ++ outlineOfRest rest)

end

/-- The parts of a clause behind `where`. -/
def Clause.outline (c : Clause) : List Piece :=
  if c.isEmpty then [] else chars " where " ++ outlineOfItems c.items

/-- The parts of the columns to read. -/
def outlineOfColumns (columns : List String) : List Piece :=
  if columns.isEmpty then chars "*" else commas (columns.map fun column => [.name column])

/-- The parts of an order. -/
def OrderBy.outline (o : OrderBy) : List Piece :=
  .name o.column :: chars (" " ++ o.direction.sql)

/-- The parts of orders behind `order by`. -/
def outlineOfOrder (order : List OrderBy) : List Piece :=
  if order.isEmpty then [] else chars " order by " ++ commas (order.map OrderBy.outline)

/-- The parts of a statement in SQL. -/
def Statement.outline : Statement → List Piece
  | select s =>
    chars "select " ++ (outlineOfColumns s.columns ++ (chars " from " ++ .name s.table ::
      (s.clause.outline ++ (outlineOfOrder s.order ++
        chars (Sql.bound "limit" s.limit ++ Sql.bound "offset" s.offset)))))
  | count table clause => chars "select count(*) from " ++ .name table :: clause.outline
  | insert table row =>
    chars "insert into " ++ .name table :: (chars " (" ++
      (commas (row.names.map fun column => [.name column]) ++ (chars ") values (" ++
        (commas (row.values.map fun _ => chars "?") ++ chars ")"))))
  | update table clause patch limit =>
    chars "update " ++ .name table :: (chars " set " ++
      (commas (patch.names.map fun column => .name column :: chars " = ?") ++
        (clause.outline ++ chars (Sql.bound "limit" limit))))
  | delete table clause => chars "delete from " ++ .name table :: clause.outline

/-! ## Texts -/

/-- A quoted name and a text behind it that begins with a blank. -/
theorem Sql.Outlines.name_chars (name text : String) (hquote : '"' ∉ text.toList)
    (hhead : text.toList.head? = some ' ') :
    Outlines (Sql.quoteName name ++ text) (.name name :: chars text) (text.toList.count '?') :=
  .name_append name (.ofChars text hquote) (Sql.follows_chars hhead (by decide))

/-- A mark for each value. -/
theorem Sql.Outlines.placeholders (values : List Json) :
    Outlines (Sql.placeholders values) (commas (values.map fun _ => chars "?")) values.length := by
  have hmark (_ : Json) : Outlines "?" (chars "?") 1 := .ofChars "?" (by decide)
  have hmarks := Outlines.join hmark values
  rwa [Nat.mul_one] at hmarks

/-- What a condition is put together of. -/
theorem Condition.outlines (c : Condition) :
    Outlines c.sql.text c.outline c.sql.bindings.length := by
  obtain ⟨field, op, operand⟩ := c
  cases op with
  | oneOf =>
    cases hvalues : operand.asArray?.getD [] with
    | nil =>
      simp only [sql, outline, hvalues]
      exact .ofChars "1 = 0" (by decide)
    | cons value rest =>
      have hclosed : Outlines (Sql.placeholders (value :: rest) ++ ")")
          (commas ((value :: rest).map fun _ => chars "?") ++ chars ")") (value :: rest).length :=
        (Outlines.placeholders (value :: rest)).append (.ofChars ")" (by decide))
          (Sql.follows_chars rfl (by decide : ')' ≠ '.'))
      have hlist := Outlines.plain_append " in (" (by decide) hclosed
      have hall := Outlines.name_append field hlist
        (Sql.follows_chars_append rfl (by decide : ' ' ≠ '.') _)
      simpa only [sql, outline, hvalues, String.append_assoc] using hall
  | isNull | isNotNull =>
    simp only [sql, outline, Fragment.ofText, String.append_assoc]
    exact Outlines.name_chars field _ (by decide) (by decide)
  | equal | notEqual | greater | atLeast | less | atMost | like =>
    simp only [sql, outline, String.append_assoc]
    exact Outlines.name_chars field _ (by decide) (by decide)

/-- Steps behind others can stand behind a name. -/
theorem follows_outlineOfRest (items : List Item) {pieces : List Piece} (h : Follows pieces) :
    Follows (outlineOfRest items ++ pieces) := by
  cases items with
  | nil => exact h
  | cons item rest =>
    rw [outlineOfRest, List.append_assoc]
    exact Sql.follows_chars_append (c := ' ') (by simp) (by decide) _

mutual

/-- What a step of a clause is put together of. -/
theorem Item.outlines (item : Item) :
    Outlines item.sql.text item.outline item.sql.bindings.length := by
  match item with
  | .condition _ condition => exact condition.outlines
  | .group _ items =>
    have hclosed := (outlines_items items).append (.ofChars ")" (by decide))
      (Sql.follows_chars rfl (by decide : ')' ≠ '.'))
    have hall := Outlines.plain_append "(" (by decide) hclosed
    simpa [Item.sql, Item.outline, Fragment.ofText, String.append_assoc] using hall

/-- What steps are put together of. -/
theorem outlines_items (items : List Item) :
    Outlines (sqlOfItems items).text (outlineOfItems items) (sqlOfItems items).bindings.length := by
  match items with
  | [] => exact ⟨rfl, trivial, rfl⟩
  | item :: rest =>
    have hfollows : Follows (outlineOfRest rest) := by
      simpa using follows_outlineOfRest rest Sql.follows_nil
    simpa [sqlOfItems, outlineOfItems] using (Item.outlines item).append (outlines_rest rest) hfollows

/-- What steps behind others are put together of. -/
theorem outlines_rest (items : List Item) :
    Outlines (sqlOfRest items).text (outlineOfRest items) (sqlOfRest items).bindings.length := by
  match items with
  | [] => exact ⟨rfl, trivial, rfl⟩
  | item :: rest =>
    have hfollows : Follows (outlineOfRest rest) := by
      simpa using follows_outlineOfRest rest Sql.follows_nil
    have hitems := (Item.outlines item).append (outlines_rest rest) hfollows
    have hplain : Sql.Plain (" " ++ item.combine.sql ++ " ") := by
      cases item.combine <;> decide
    have hall := Outlines.plain_append _ hplain hitems
    simpa [sqlOfRest, outlineOfRest, Fragment.ofText, String.append_assoc] using hall

end

/-- What a clause is put together of behind `where`. -/
theorem Clause.outlines (c : Clause) :
    Outlines (Sql.whereClause c).text c.outline (Sql.whereClause c).bindings.length := by
  unfold Sql.whereClause Clause.outline
  split
  · exact ⟨rfl, trivial, rfl⟩
  · simpa [Fragment.ofText, Clause.sql] using Outlines.plain_append " where " (by decide)
      (outlines_items c.items)

/-- The parts of a clause can stand behind a name, with others behind them that can. -/
theorem Clause.follows_outline (c : Clause) {pieces : List Piece} (h : Follows pieces) :
    Follows (c.outline ++ pieces) := by
  unfold Clause.outline
  split
  · exact h
  · rw [List.append_assoc]
    exact Sql.follows_chars_append rfl (by decide : ' ' ≠ '.') _

/-- What the columns to read are put together of. -/
theorem outlines_columns (columns : List String) :
    Outlines (Sql.columnList columns) (outlineOfColumns columns) 0 := by
  unfold Sql.columnList outlineOfColumns
  split
  · exact .ofPlain "*" (by decide)
  · simpa [Sql.nameList] using Outlines.join Outlines.ofName columns

/-- What an order is put together of. -/
theorem OrderBy.outlines (o : OrderBy) : Outlines o.sql o.outline 0 := by
  obtain ⟨column, direction⟩ := o
  unfold OrderBy.sql OrderBy.outline
  rw [String.append_assoc]
  cases direction with
  | asc => exact Outlines.name_chars column (" " ++ Direction.asc.sql) (by decide) (by decide)
  | desc => exact Outlines.name_chars column (" " ++ Direction.desc.sql) (by decide) (by decide)

/-- What orders are put together of behind `order by`. -/
theorem outlines_order (order : List OrderBy) :
    Outlines (Sql.orderBy order) (outlineOfOrder order) 0 := by
  unfold Sql.orderBy outlineOfOrder
  split
  · exact ⟨rfl, trivial, rfl⟩
  · simpa using Outlines.plain_append " order by " (by decide)
      (Outlines.join OrderBy.outlines order)

/-- The parts of an order can stand behind a name, with others behind them that can. -/
theorem follows_outlineOfOrder (order : List OrderBy) {pieces : List Piece} (h : Follows pieces) :
    Follows (outlineOfOrder order ++ pieces) := by
  unfold outlineOfOrder
  split
  · exact h
  · rw [List.append_assoc]
    exact Sql.follows_chars_append rfl (by decide : ' ' ≠ '.') _

/-- A bound is a word and digits. -/
theorem Sql.plain_bound {word : String} (hword : Sql.Plain word) (n : Option Nat) :
    Sql.Plain (Sql.bound word n) := by
  cases n with
  | none => exact nofun
  | some n =>
    have hdigits : Sql.Plain (toString n) := by
      intro c hc
      have hmem : c ∈ Nat.toDigits 10 n := Nat.toList_repr ▸ hc
      have hdigit : c.isDigit = true := Nat.isDigit_of_mem_toDigits (by decide) (by decide) hmem
      refine ⟨?_, ?_⟩
      · rintro rfl
        cases hdigit
      · rintro rfl
        cases hdigit
    exact ((Plain.append (by decide) hword).append (by decide)).append hdigits

/-- Bounds can stand behind a name. -/
theorem Sql.follows_bound (word : String) (n : Option Nat) {text : String} (h : Follows (chars text)) :
    Follows (chars (Sql.bound word n ++ text)) := by
  cases n with
  | none => simpa [Sql.bound] using h
  | some n => exact Sql.follows_chars (c := ' ') (by simp [Sql.bound]) (by decide)

/-- A bound can stand behind a name. -/
theorem Sql.follows_bound_alone (word : String) (n : Option Nat) : Follows (chars (Sql.bound word n)) := by
  have hempty : Follows (chars "") := Sql.follows_nil
  simpa using Sql.follows_bound word n hempty

/-- What words with a table and a clause are put together of. -/
theorem outlines_words {words : String} (hwords : Sql.Plain words) (table : String) (clause : Clause) :
    Outlines (.ofText (words ++ Sql.quoteName table) ++ Sql.whereClause clause : Fragment).text
      (chars words ++ .name table :: clause.outline) (Sql.whereClause clause).bindings.length := by
  have hclause : Follows clause.outline := by
    simpa using clause.follows_outline Sql.follows_nil
  have htable := Outlines.name_append table clause.outlines hclause
  have hall := Outlines.plain_append words hwords htable
  rwa [← String.append_assoc] at hall

/-- What a selection is put together of. -/
theorem Selection.outlines (s : Selection) :
    Outlines s.sql.text (Statement.outline (.select s)) s.sql.bindings.length := by
  have hbounds : Outlines (Sql.bound "limit" s.limit ++ Sql.bound "offset" s.offset)
      (chars (Sql.bound "limit" s.limit ++ Sql.bound "offset" s.offset)) 0 :=
    .ofPlain _ ((Sql.plain_bound (by decide) _).append (Sql.plain_bound (by decide) _))
  have hfollows : Follows (chars (Sql.bound "limit" s.limit ++ Sql.bound "offset" s.offset)) :=
    Sql.follows_bound "limit" s.limit (Sql.follows_bound_alone "offset" s.offset)
  have horder := (outlines_order s.order).append hbounds hfollows
  have hclause := s.clause.outlines.append horder (follows_outlineOfOrder s.order hfollows)
  have htable := Outlines.name_append s.table hclause
    (s.clause.follows_outline (follows_outlineOfOrder s.order hfollows))
  have hfrom := Outlines.plain_append " from " (by decide) htable
  have hcolumns := (outlines_columns s.columns).append hfrom
    (Sql.follows_chars_append rfl (by decide : ' ' ≠ '.') _)
  have hall := Outlines.plain_append "select " (by decide) hcolumns
  simpa only [sql, Statement.outline, Fragment.ofText, Fragment.text_append, Fragment.bindings_append,
    List.nil_append, List.append_nil, String.append_assoc, Nat.zero_add, Nat.add_zero] using hall

/-- What an update is put together of. -/
theorem outlines_update (table : String) (clause : Clause) (patch : Row) (limit : Option Nat) :
    Outlines (Statement.update table clause patch limit).sql.text
      (Statement.update table clause patch limit).outline
      (Statement.update table clause patch limit).sql.bindings.length := by
  have hbound : Outlines (Sql.bound "limit" limit) (chars (Sql.bound "limit" limit)) 0 :=
    .ofPlain _ (Sql.plain_bound (by decide) _)
  have hfollows := Sql.follows_bound_alone "limit" limit
  have hclause := clause.outlines.append hbound hfollows
  have hassign (column : String) : Outlines (Sql.quoteName column ++ " = ?")
      (.name column :: chars " = ?") 1 :=
    Outlines.name_chars column _ (by decide) (by decide)
  have hpatch := (Outlines.join hassign patch.names).append hclause (clause.follows_outline hfollows)
  have hset := Outlines.plain_append " set " (by decide) hpatch
  have htable := Outlines.name_append table hset
    (Sql.follows_chars_append rfl (by decide : ' ' ≠ '.') _)
  have hall := Outlines.plain_append "update " (by decide) htable
  have hlength : patch.names.length = patch.values.length := by
    simp only [Members.names, Members.values, List.length_map]
  have hsql : (Statement.update table clause patch limit).sql =
      .ofText ("update " ++ Sql.quoteName table ++ " set ") ++ Sql.assignments patch ++
        Sql.whereClause clause ++ .ofText (Sql.bound "limit" limit) := rfl
  simpa only [hsql, Statement.outline, Sql.assignments, Fragment.ofText, Fragment.text_append,
    Fragment.bindings_append, List.nil_append, List.append_nil, List.length_append, hlength,
    String.append_assoc, Nat.mul_one, Nat.add_zero] using hall

/-- What a statement is put together of. -/
theorem Statement.outlines (s : Statement) :
    Outlines s.sql.text s.outline s.sql.bindings.length := by
  cases s with
  | select s => exact s.outlines
  | count table clause => exact outlines_words (by decide) table clause
  | insert table row =>
    -- From the end of the text to its beginning: what follows a name has to be known first.
    have hmarks := (Outlines.placeholders row.values).append (.ofPlain ")" (by decide))
      (Sql.follows_chars rfl (by decide : ')' ≠ '.'))
    have hvalues := Outlines.plain_append ") values (" (by decide) hmarks
    have hcolumns := (Outlines.join Outlines.ofName row.names).append hvalues
      (Sql.follows_chars_append rfl (by decide : ')' ≠ '.') _)
    have hopen := Outlines.plain_append " (" (by decide) hcolumns
    have htable := Outlines.name_append table hopen
      (Sql.follows_chars_append rfl (by decide : ' ' ≠ '.') _)
    have hall := Outlines.plain_append "insert into " (by decide) htable
    have hsql : (insert table row).sql =
        ⟨"insert into " ++ Sql.quoteName table ++ " (" ++ Sql.nameList row.names ++ ") values (" ++
          Sql.placeholders row.values ++ ")", row.values⟩ := rfl
    simpa only [hsql, outline, Sql.nameList, String.append_assoc, Nat.mul_zero, Nat.zero_add,
      Nat.add_zero] using hall
  | update table clause patch limit => exact outlines_update table clause patch limit
  | delete table clause => exact outlines_words (by decide) table clause

end SchemaQuery
