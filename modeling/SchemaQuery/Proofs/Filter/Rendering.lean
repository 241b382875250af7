import SchemaQuery.Proofs.Filter.Lowering
import SchemaQuery.Proofs.Sql.Fragment

/-!
# What the SQL of a clause tells

Two clauses with the same SQL hold of the same rows. The SQL leaves out the operand of a null test, the
column and the operand of a membership in no values, and how the first item of a row joins; none of these
matters to a row. Everything else can be read back from the front of the text, with the values that belong
to it: no operator begins another one, a name ends where its quotes end, and a list has as many values as it
has marks.
-/

namespace SchemaQuery

namespace Comparison

/-- The operator as it stands behind a column; one that takes an operand has a blank behind it. -/
def word (op : Comparison) : List Char :=
  if op.isNullTest then op.sql.toList else op.sql.toList ++ [' ']

/-- Every comparison is listed. -/
theorem mem_all (op : Comparison) : op ∈ all := by
  cases op <;> decide

/-- No operator begins another one. -/
theorem eq_of_word_leads {op other : Comparison} (h : op.word <+: other.word) : op = other := by
  have hall : ∀ op ∈ all, ∀ other ∈ all, op.word <+: other.word → op = other := by decide
  exact hall op op.mem_all other other.mem_all h

/-- An operator can be cut off the front of a text in one way only. -/
theorem word_append_inj {op other : Comparison} {rest rest' : List Char}
    (h : op.word ++ rest = other.word ++ rest') : op = other ∧ rest = rest' := by
  have hop : op = other := by
    rcases List.prefix_or_prefix_of_prefix (List.prefix_append op.word rest)
      (h ▸ List.prefix_append other.word rest') with hleads | hleads
    · exact eq_of_word_leads hleads
    · exact (eq_of_word_leads hleads).symm
  subst hop
  exact ⟨rfl, List.append_cancel_left h⟩

end Comparison

/-! ## Conditions -/

namespace Condition

/-- Whether the condition asks for membership in no values. -/
def IsNever (c : Condition) : Prop :=
  c.op = .oneOf ∧ c.operand.asArray?.getD [] = []

/-- What stands behind the operator: a mark for every value, and the values. -/
def marks (c : Condition) : Fragment :=
  match c.op with
  | .isNull | .isNotNull => .ofText ""
  | .oneOf =>
    let values := c.operand.asArray?.getD []
    ⟨"(" ++ Sql.placeholders values ++ ")", values⟩
  | _ => ⟨"?", [c.operand]⟩

variable {a b c : Condition}

/-- Membership in no values is written without the column. -/
theorem sql_of_isNever (h : c.IsNever) : c.sql = .ofText "1 = 0" := by
  simp [sql, h.1, h.2]

/-- No row has a member of no values. -/
theorem holds_of_isNever (h : c.IsNever) (row : Row) : c.holds row = false := by
  obtain ⟨field, op, operand⟩ := c
  obtain ⟨rfl, hvalues⟩ := h
  cases operand <;> simp_all [holds, Json.asArray?]

/-- Every other condition is written as the column, the operator and the marks. -/
theorem sql_of_not_isNever (h : ¬c.IsNever) :
    c.sql.text.toList =
        (Sql.quoteName c.field).toList ++ ' ' :: (c.op.word ++ c.marks.text.toList) ∧
      c.sql.bindings = c.marks.bindings := by
  obtain ⟨field, op, operand⟩ := c
  cases op with
  | oneOf =>
    cases hvalues : operand.asArray?.getD [] with
    | nil => exact absurd ⟨rfl, hvalues⟩ h
    | cons value rest =>
      simp [sql, marks, hvalues, Comparison.word, Comparison.isNullTest, Comparison.sql]
  | isNull | isNotNull =>
    simp [sql, marks, Comparison.word, Comparison.isNullTest, Comparison.sql, Fragment.ofText]
  | equal | notEqual | greater | atLeast | less | atMost | like =>
    simp [sql, marks, Comparison.word, Comparison.isNullTest, Comparison.sql]

/-- A condition begins with a quote or, where it asks for membership in no values, with a digit. -/
theorem head?_sql (c : Condition) (rest : List Char) :
    (c.sql.text.toList ++ rest).head? = some '"' ∨ (c.sql.text.toList ++ rest).head? = some '1' := by
  by_cases h : c.IsNever
  · right
    simp [sql_of_isNever h, Fragment.ofText]
  · left
    rw [(sql_of_not_isNever h).1, List.append_assoc, Sql.head?_quoteName_append]

/-- The marks of two conditions with one operator can be cut off in one way only; they are equally many. -/
theorem marks_append_inj (hop : a.op = b.op) (ha : ¬a.IsNever) (hb : ¬b.IsNever)
    {rest rest' : List Char} (h : a.marks.text.toList ++ rest = b.marks.text.toList ++ rest') :
    a.marks.bindings.length = b.marks.bindings.length ∧ rest = rest' := by
  obtain ⟨field, op, operand⟩ := a
  obtain ⟨field', op', operand'⟩ := b
  obtain rfl : op = op' := hop
  cases op with
  | oneOf =>
    have hvalues : operand.asArray?.getD [] ≠ [] := fun hnil => ha ⟨rfl, hnil⟩
    have hothers : operand'.asArray?.getD [] ≠ [] := fun hnil => hb ⟨rfl, hnil⟩
    refine Sql.placeholders_append_inj hvalues hothers ?_
    simpa [marks] using h
  | isNull | isNotNull | equal | notEqual | greater | atLeast | less | atMost | like =>
    exact ⟨rfl, List.append_cancel_left h⟩

/-- Membership is membership in the values of the operand. -/
theorem holds_oneOf_operand (row : Row) (field : String) (operand : Json) :
    holds ⟨field, .oneOf, operand⟩ row =
      (!(row.getD field).isNull &&
        (operand.asArray?.getD []).any ((row.getD field).equals ·)) := by
  cases hnull : (row.getD field).isNull <;> cases operand <;> simp [holds, hnull, Json.asArray?]

/-- Conditions on one column with one operator and the same values hold of the same rows. -/
theorem holds_congr (hfield : a.field = b.field) (hop : a.op = b.op)
    (h : sameItems a.marks.bindings b.marks.bindings = true) (row : Row) : a.holds row = b.holds row := by
  obtain ⟨field, op, operand⟩ := a
  obtain ⟨field', op', operand'⟩ := b
  obtain rfl : field = field' := hfield
  obtain rfl : op = op' := hop
  cases op with
  | isNull | isNotNull => rfl
  | oneOf =>
    rw [holds_oneOf_operand, holds_oneOf_operand]
    exact congrArg _ (any_equals_congr (row.getD field) h)
  | like =>
    have hsame : operand.same operand' = true := by simpa [marks, sameItems] using h
    cases operand <;> cases operand' <;> simp_all [holds, Json.same]
  | equal | notEqual | greater | atLeast | less | atMost =>
    have hsame : operand.same operand' = true := by simpa [marks, sameItems] using h
    simp [holds, Json.isNull_eq_of_same hsame, Json.equals_congr _ hsame,
      Json.compareValues?_congr _ hsame]

/-- The SQL of a condition can be cut off the front of a fragment in one way only, as far as rows can
tell. -/
theorem sql_append_inj {rest rest' : Fragment} (h : (a.sql ++ rest).Same (b.sql ++ rest')) :
    (∀ row, a.holds row = b.holds row) ∧ rest.Same rest' := by
  have htext := h.toList_text
  have hbindings : sameItems (a.sql.bindings ++ rest.bindings) (b.sql.bindings ++ rest'.bindings) = true :=
    h.2
  by_cases ha : a.IsNever
  · by_cases hb : b.IsNever
    · rw [sql_of_isNever ha, sql_of_isNever hb] at h
      refine ⟨fun row => ?_, Fragment.same_ofText_append.mp h⟩
      rw [holds_of_isNever ha, holds_of_isNever hb]
    · rw [sql_of_isNever ha, (sql_of_not_isNever hb).1] at htext
      simp [Fragment.ofText, Sql.quoteName] at htext
  · by_cases hb : b.IsNever
    · rw [(sql_of_not_isNever ha).1, sql_of_isNever hb] at htext
      simp [Fragment.ofText, Sql.quoteName] at htext
    · have hblank (rest : List Char) : Sql.EndsName (' ' :: rest) := by simp [Sql.EndsName]
      simp only [(sql_of_not_isNever ha).1, (sql_of_not_isNever hb).1, List.append_assoc,
        List.cons_append] at htext
      obtain ⟨hfield, hoperator⟩ := Sql.quoteName_append_inj (hblank _) (hblank _) htext
      obtain ⟨hop, hmarks⟩ := Comparison.word_append_inj (List.cons.inj hoperator).2
      obtain ⟨hlength, hrest⟩ := marks_append_inj hop ha hb hmarks
      rw [(sql_of_not_isNever ha).2, (sql_of_not_isNever hb).2, sameItems_append hlength,
        Bool.and_eq_true] at hbindings
      exact ⟨holds_congr hfield hop hbindings.1, String.toList_inj.mp hrest, hbindings.2⟩

end Condition

/-! ## Rows of items -/

/-- Whether a fragment can stand behind a row of items: it does not begin as a further item would. -/
def Fragment.Closes (f : Fragment) : Prop :=
  f.text.toList.head? ≠ some ' '

/-- An item of a row begins as no closing text does. -/
theorem Item.head?_sql (item : Item) (rest : List Char) :
    ∃ c ∈ ['"', '1', '('], (item.sql.text.toList ++ rest).head? = some c := by
  cases item with
  | condition combine condition =>
    rcases condition.head?_sql rest with h | h
    · exact ⟨'"', by simp, h⟩
    · exact ⟨'1', by simp, h⟩
  | group combine items => exact ⟨'(', by simp, by simp [Item.sql, Fragment.ofText]⟩

/-- A connective can be cut off the front of a fragment in one way only. -/
theorem Combine.sql_append_inj {left right : Combine} {rest rest' : Fragment}
    (h : (Fragment.ofText (" " ++ left.sql ++ " ") ++ rest).Same
      (Fragment.ofText (" " ++ right.sql ++ " ") ++ rest')) : left = right ∧ rest.Same rest' := by
  have hsame : left = right := by
    have htext := h.toList_text
    cases left <;> cases right <;> simp_all [Combine.sql, Fragment.ofText]
  subst hsame
  exact ⟨rfl, Fragment.same_ofText_append.mp h⟩

mutual

/-- The SQL of an item can be cut off the front of a fragment in one way only, as far as rows can tell. -/
theorem Item.sql_append_inj (a b : Item) (ha : a.Solid) (hb : b.Solid) {rest rest' : Fragment}
    (h : (a.sql ++ rest).Same (b.sql ++ rest')) :
    (∀ row, a.holds row = b.holds row) ∧ rest.Same rest' := by
  match a, b with
  | .condition _ c, .condition _ d => exact Condition.sql_append_inj h
  | .condition _ c, .group _ items =>
    have htext := congrArg List.head? h.toList_text
    rcases c.head?_sql rest.text.toList with hc | hc <;> simp_all [Item.sql, Fragment.ofText]
  | .group _ items, .condition _ d =>
    have htext := congrArg List.head? h.toList_text
    rcases d.head?_sql rest'.text.toList with hd | hd <;> simp_all [Item.sql, Fragment.ofText]
  | .group _ items, .group _ others =>
    simp only [Item.sql, Fragment.append_assoc, Fragment.same_ofText_append] at h
    have hcloses (rest : Fragment) : (Fragment.ofText ")" ++ rest).Closes := by
      simp [Fragment.Closes, Fragment.ofText]
    obtain ⟨hholds, hrest⟩ := sqlOfItems_append_inj items others ha.1 hb.1 ha.2 hb.2 (hcloses rest)
      (hcloses rest') h
    exact ⟨hholds, Fragment.same_ofText_append.mp hrest⟩

/-- The SQL of a row of items can be cut off the front of a fragment in one way only, as far as rows of
tables can tell. -/
theorem sqlOfItems_append_inj (as bs : List Item) (hne : as ≠ []) (hne' : bs ≠ []) (ha : AllSolid as)
    (hb : AllSolid bs) {rest rest' : Fragment} (hrest : rest.Closes) (hrest' : rest'.Closes)
    (h : (sqlOfItems as ++ rest).Same (sqlOfItems bs ++ rest')) :
    (∀ row, anyRunHolds row as false true true = anyRunHolds row bs false true true) ∧
      rest.Same rest' := by
  match as, bs with
  | [], _ => exact absurd rfl hne
  | _ :: _, [] => exact absurd rfl hne'
  | a :: as, b :: bs =>
    simp only [sqlOfItems, Fragment.append_assoc] at h
    obtain ⟨hitem, h⟩ := Item.sql_append_inj a b ha.1 hb.1 h
    obtain ⟨hitems, h⟩ := sqlOfRest_append_inj as bs ha.2 hb.2 hrest hrest' h
    refine ⟨fun row => ?_, h⟩
    rw [anyRunHolds_cons_first, anyRunHolds_cons_first, hitem row, hitems row]

/-- The SQL of items behind others can be cut off the front of a fragment in one way only, as far as rows
of tables can tell. -/
theorem sqlOfRest_append_inj (as bs : List Item) (ha : AllSolid as) (hb : AllSolid bs)
    {rest rest' : Fragment} (hrest : rest.Closes) (hrest' : rest'.Closes)
    (h : (sqlOfRest as ++ rest).Same (sqlOfRest bs ++ rest')) :
    (∀ row done run, anyRunHolds row as done run false = anyRunHolds row bs done run false) ∧
      rest.Same rest' := by
  match as, bs with
  | [], [] => exact ⟨fun _ _ _ => rfl, Fragment.same_ofText_append.mp h⟩
  | [], b :: bs =>
    have htext := congrArg List.head? h.toList_text
    exact absurd (by simpa [sqlOfRest, Fragment.ofText] using htext) hrest
  | a :: as, [] =>
    have htext := congrArg List.head? h.toList_text
    exact absurd (by simpa [sqlOfRest, Fragment.ofText] using htext.symm) hrest'
  | a :: as, b :: bs =>
    simp only [sqlOfRest, Fragment.append_assoc] at h
    obtain ⟨hcombine, h⟩ := Combine.sql_append_inj h
    obtain ⟨hitem, h⟩ := Item.sql_append_inj a b ha.1 hb.1 h
    obtain ⟨hitems, h⟩ := sqlOfRest_append_inj as bs ha.2 hb.2 hrest hrest' h
    refine ⟨fun row done run => ?_, h⟩
    rw [anyRunHolds, anyRunHolds, hcombine, hitem row, hitems row, hitems row]

end

/-! ## Clauses -/

namespace Clause

/-- Clauses that are put together step by step. -/
inductive Built : Clause → Prop where
  | empty : Built .empty
  | pushCondition {clause : Clause} (combine : Combine) (condition : Condition) :
    Built clause → Built (clause.pushCondition combine condition)
  | pushGroup {clause group : Clause} (combine : Combine) :
    Built clause → Built group → Built (clause.pushGroup combine group)
  | andWhere {clause : Clause} (condition : Condition) :
    Built clause → Built (clause.andWhere condition)

/-- No group of a built clause is empty. -/
theorem Built.solid {clause : Clause} (h : clause.Built) : AllSolid clause.items := by
  induction h with
  | empty => trivial
  | pushCondition combine condition _ ih => exact allSolid_append ih ⟨trivial, trivial⟩
  | pushGroup combine _ _ ih ihgroup =>
    unfold Clause.pushGroup
    split
    · exact ih
    · next hne => exact allSolid_append ih ⟨⟨by simpa [Clause.isEmpty] using hne, ihgroup⟩, trivial⟩
  | andWhere condition _ ih => exact allSolid_append ih ⟨trivial, trivial⟩

/-- Clauses with the same SQL, text and values, hold of the same rows, whatever columns and operands they
name and however they are nested. -/
theorem holds_eq_of_same_sql {left right : Clause} (builtLeft : left.Built) (builtRight : right.Built)
    (same : left.sql.Same right.sql) (row : Row) : left.holds row = right.holds row := by
  obtain ⟨as⟩ := left
  obtain ⟨bs⟩ := right
  have hcloses : (Fragment.ofText "").Closes := by simp [Fragment.Closes, Fragment.ofText]
  match as, bs with
  | [], [] => rfl
  | [], b :: bs =>
    obtain ⟨c, -, hc⟩ := b.head?_sql (sqlOfRest bs).text.toList
    have htext := congrArg String.toList same.1
    simp_all [Clause.sql, sqlOfItems, Fragment.ofText]
  | a :: as, [] =>
    obtain ⟨c, -, hc⟩ := a.head?_sql (sqlOfRest as).text.toList
    have htext := congrArg String.toList same.1
    simp_all [Clause.sql, sqlOfItems, Fragment.ofText]
  | a :: as, b :: bs =>
    rw [← Fragment.append_ofText_empty (Clause.sql _), ← Fragment.append_ofText_empty (Clause.sql ⟨b :: bs⟩)]
      at same
    exact (sqlOfItems_append_inj (a :: as) (b :: bs) (List.cons_ne_nil _ _) (List.cons_ne_nil _ _)
      builtLeft.solid builtRight.solid hcloses hcloses same).1 row

/-- Two clauses that differ in all that the SQL leaves out: how a first item joins, what has no value to be
a member of, the operand of a null test, and the sign of zero. -/
theorem holds_eq_of_same_sql_unwritten :
    let left : Clause :=
      (Clause.empty.pushCondition .or ⟨"price.\"net", .atMost, .float (.zero false)⟩).pushGroup .or
        ((Clause.empty.andWhere ⟨"tag", .oneOf, .arr []⟩).pushCondition .or ⟨"deleted", .isNull, .null⟩)
    let right : Clause :=
      (Clause.empty.andWhere ⟨"price.\"net", .atMost, .float (.zero true)⟩).pushGroup .or
        ((Clause.empty.pushCondition .or ⟨"name", .oneOf, .str "Ann"⟩).pushCondition .or
          ⟨"deleted", .isNull, .bool true⟩)
    let row : Row := [("price.\"net", .ofInt 0), ("deleted", .str "yes")]
    left.Built ∧ right.Built ∧ left.sql.Same right.sql ∧ left.holds row = right.holds row := by
  intro left right row
  have builtLeft : left.Built :=
    .pushGroup .or (.pushCondition .or _ .empty) (.pushCondition .or _ (.andWhere _ .empty))
  have builtRight : right.Built :=
    .pushGroup .or (.andWhere _ .empty) (.pushCondition .or _ (.pushCondition .or _ .empty))
  have same : left.sql.Same right.sql := ⟨by decide +kernel, by decide +kernel⟩
  exact ⟨builtLeft, builtRight, same, holds_eq_of_same_sql builtLeft builtRight same row⟩

end Clause

end SchemaQuery
