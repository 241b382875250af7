import SchemaQuery.Proofs.Basic
import SchemaQuery.Proofs.Filter.Lowering
import SchemaQuery.Proofs.Json.Equality
import SchemaQuery.Rows

/-!
# What a filter means

A row satisfies a filter object when every member of it holds, by recursion on the object. Whatever is
compiled and lowered from an accepted filter holds of exactly those rows, at any nesting of alternatives,
lists with null and operators; and a search with the filter gives exactly the rows that satisfy it.
-/

namespace SchemaQuery

namespace Filter

/-- Whether a column value passes an operator of a filter object. -/
def Passes (actual : Json) (tag : String) (operand : Json) : Prop :=
  if tag = "$ne" ∧ operand.isNull then ¬actual.isNull
  else if actual.isNull then False
  else if tag = "$gt" then actual.compareValues? operand = some .gt
  else if tag = "$gte" then
    actual.compareValues? operand = some .gt ∨ actual.compareValues? operand = some .eq
  else if tag = "$lt" then actual.compareValues? operand = some .lt
  else if tag = "$lte" then
    actual.compareValues? operand = some .lt ∨ actual.compareValues? operand = some .eq
  else if tag = "$like" then
    ∃ text ∈ actual.asString?, ∃ pattern ∈ operand.asString?, likeMatches text pattern
  else if tag = "$ne" then ¬actual.equals operand
  else if tag = "$in" then ∃ value ∈ operand.asArray?.getD [], actual.equals value
  else False

instance (actual : Json) (tag : String) (operand : Json) : Decidable (Passes actual tag operand) := by
  delta Passes
  infer_instance

/-- Whether a column value is what a filter asks of the column: null for null, a member of a list, every
operator of an object that has operators, and an equal value otherwise. -/
def FieldHolds (actual : Json) : Json → Prop
  | .null => actual.isNull
  | .arr values =>
    (∃ value ∈ values, ¬value.isNull ∧ actual.equals value) ∨
      ((∃ value ∈ values, value.isNull) ∧ actual.isNull)
  | .obj members =>
    if ∃ name ∈ Members.names members, isOperatorKey name then
      ∀ tag ∈ Members.names members, ∀ operand ∈ Members.get? members tag, Passes actual tag operand
    else actual.equals (.obj members)
  | value => actual.equals value

instance (actual : Json) : DecidablePred (FieldHolds actual)
  | .null => inferInstanceAs (Decidable (_ = _))
  | .arr _ => inferInstanceAs (Decidable (_ ∨ _))
  | .obj members =>
    inferInstanceAs
      (Decidable (ite (∃ name ∈ Members.names members, isOperatorKey name = true) _ _))
  | .bool _ | .int _ | .float _ | .str _ => inferInstanceAs (Decidable (_ = _))

mutual

/-- Whether a row satisfies a filter object: every member of it holds. -/
def Holds (row : Row) : List (String × Json) → Prop
  | [] => True
  | (key, value) :: rest => EntryHolds row key value ∧ Holds row rest

/-- Whether a row satisfies a member of a filter object: one of the alternatives under a key for
alternatives, what is asked of the column under any other key. -/
def EntryHolds (row : Row) (key : String) : Json → Prop
  | .arr values =>
    if isDisjunctionKey key then SomeBranchHolds row values
    else FieldHolds (row.getD key) (.arr values)
  | value => ¬isDisjunctionKey key ∧ FieldHolds (row.getD key) value

/-- Whether a row satisfies one of some alternatives. -/
def SomeBranchHolds (row : Row) : List Json → Prop
  | [] => False
  | .obj members :: rest => Holds row members ∨ SomeBranchHolds row rest
  | _ :: rest => SomeBranchHolds row rest

end

mutual

/-- Decides whether a row satisfies a filter object. -/
def decideHolds (row : Row) : (members : List (String × Json)) → Decidable (Holds row members)
  | [] => inferInstanceAs (Decidable True)
  | (key, value) :: rest =>
    have := decideEntryHolds row key value
    have := decideHolds row rest
    inferInstanceAs (Decidable (EntryHolds row key value ∧ Holds row rest))

/-- Decides whether a row satisfies a member of a filter object. -/
def decideEntryHolds (row : Row) (key : String) :
    (value : Json) → Decidable (EntryHolds row key value)
  | .arr values =>
    have := decideSomeBranchHolds row values
    inferInstanceAs (Decidable (ite (isDisjunctionKey key = true) _ _))
  | .null | .bool _ | .int _ | .float _ | .str _ | .obj _ =>
    inferInstanceAs (Decidable (¬isDisjunctionKey key ∧ _))

/-- Decides whether a row satisfies one of some alternatives. -/
def decideSomeBranchHolds (row : Row) :
    (branches : List Json) → Decidable (SomeBranchHolds row branches)
  | [] => inferInstanceAs (Decidable False)
  | .obj members :: rest =>
    have := decideHolds row members
    have := decideSomeBranchHolds row rest
    inferInstanceAs (Decidable (Holds row members ∨ SomeBranchHolds row rest))
  | .null :: rest | .bool _ :: rest | .int _ :: rest | .float _ :: rest | .str _ :: rest
  | .arr _ :: rest => decideSomeBranchHolds row rest

end

instance (row : Row) (filter : Filter) : Decidable (Holds row filter) :=
  decideHolds row filter

end Filter

/-! ## Conditions -/

namespace Condition

variable (row : Row) (field : String)

/-- The condition of equality holds of equal values. -/
theorem holds_equal (value : Json) :
    (Condition.equal field value).holds row = (row.getD field).equals value := by
  by_cases h : (row.getD field).isNull
  · simp [Condition.holds, Condition.equal, h, Json.equals_of_isNull h]
  · simp [Condition.holds, Condition.equal, h]

/-- The condition of a list holds of values equal to a member. -/
theorem holds_oneOf (values : List Json) :
    (Condition.oneOf field values).holds row = values.any ((row.getD field).equals ·) := by
  by_cases h : (row.getD field).isNull
  · simp [Condition.holds, Condition.oneOf, h, Json.equals_of_isNull h]
  · simp [Condition.holds, Condition.oneOf, h]

/-- The null condition holds of null. -/
theorem holds_isNull : (Condition.isNull field).holds row = (row.getD field).isNull := rfl

/-- The condition against null holds of everything else. -/
theorem holds_isNotNull : (Condition.isNotNull field).holds row = !(row.getD field).isNull := rfl

/-- The condition of an operator holds of nothing that is null. -/
theorem holds_of_isNull {c : Condition} {tag : String} (hrow : (row.getD c.field).isNull = true)
    (htag : (tag, c.op) ∈ Comparison.tags) : c.holds row = false := by
  obtain ⟨field, op, operand⟩ := c
  cases op <;> simp_all [holds, Comparison.tags]

end Condition

namespace Filter

/-! ## Compiling one column -/

section Column

variable (row : Row) (field : String)

/-- The values of an accepted list are the list itself. -/
theorem eq_of_listValues {values accepted : List Json} (h : listValues field values = .ok accepted) :
    accepted = values := by
  unfold listValues at h
  split at h
  · cases h
  · exact (Except.ok.inj h).symm

/-- A list compiles to the condition that the column equals a member, or is null where null is one. -/
theorem compileList_holds {values : List Json} {tree : Predicate}
    (h : compileList field values = .ok tree) :
    tree.Branching ∧ (tree.holds row = true ↔ FieldHolds (row.getD field) (.arr values)) := by
  obtain ⟨accepted, haccepted, htree⟩ := bind_eq_ok_iff.mp h
  obtain rfl := eq_of_listValues field haccepted
  have hpresent : (∃ value ∈ accepted, ¬value.isNull ∧ (row.getD field).equals value = true) ↔
      (accepted.filter (!·.isNull)).any ((row.getD field).equals ·) = true := by
    simp only [List.any_eq_true, List.mem_filter, Bool.not_eq_true', Bool.not_eq_true, and_assoc]
  by_cases hnull : accepted.any Json.isNull = true
  · rw [if_pos hnull] at htree
    have hsome : ∃ value ∈ accepted, value.isNull = true := List.any_eq_true.mp hnull
    cases hfilter : accepted.filter (!·.isNull) with
    | nil =>
      rw [hfilter] at htree hpresent
      obtain rfl := Except.ok.inj htree
      refine ⟨trivial, ?_⟩
      simp only [FieldHolds, hpresent, Predicate.holds, Condition.holds_isNull, List.any_nil,
        Bool.false_eq_true, false_or, hsome, true_and]
    | cons first others =>
      rw [hfilter] at htree hpresent
      obtain rfl := Except.ok.inj htree
      refine ⟨⟨List.cons_ne_nil _ _, trivial, trivial, trivial⟩, ?_⟩
      simp only [FieldHolds, hpresent, Predicate.holds, anyHolds, Condition.holds_oneOf,
        Condition.holds_isNull, Bool.or_false, Bool.or_eq_true, hsome, true_and]
  · rw [if_neg hnull] at htree
    obtain rfl := Except.ok.inj htree
    have hnone : ∀ value ∈ accepted, value.isNull = false := by
      simpa using hnull
    have hall : accepted.filter (!·.isNull) = accepted :=
      List.filter_eq_self.mpr fun value hmem => by simp [hnone value hmem]
    refine ⟨trivial, ?_⟩
    have hnot : ¬∃ value ∈ accepted, value.isNull = true := fun ⟨value, hmem, hvalue⟩ => by
      simp [hnone value hmem] at hvalue
    rw [hall] at hpresent
    simp only [FieldHolds, hpresent, Predicate.holds, Condition.holds_oneOf, hnot, false_and, or_false]

/-- The condition of an operator holds of the column values that pass the operator. -/
theorem compileOperator_holds {tag : String} {op : Comparison} {operand : Json} {condition : Condition}
    (htag : (tag, op) ∈ Comparison.tags) (h : compileOperator field tag op operand = .ok condition) :
    condition.holds row = true ↔ Passes (row.getD field) tag operand := by
  simp only [Comparison.tags, List.mem_cons, Prod.mk.injEq, List.not_mem_nil, or_false] at htag
  cases op with
  | equal | isNull | isNotNull => simp at htag
  | greater | atLeast | less | atMost =>
    obtain rfl : tag = _ := by simpa using htag
    obtain rfl := Except.ok.inj h
    by_cases hnull : (row.getD field).isNull <;> simp [Passes, Condition.holds, hnull]
  | like =>
    obtain rfl : tag = _ := by simpa using htag
    obtain rfl := Except.ok.inj h
    by_cases hnull : (row.getD field).isNull
    · simp [Passes, Condition.holds, hnull]
    · cases hactual : row.getD field <;> cases operand <;>
        simp_all [Passes, Condition.holds, Json.asString?, Json.isNull]
  | notEqual =>
    obtain rfl : tag = _ := by simpa using htag
    cases operand with
    | null =>
      obtain rfl := Except.ok.inj h
      simp [Passes, Condition.holds_isNotNull, Json.isNull]
    | _ =>
      obtain rfl := Except.ok.inj h
      simp [Passes, Condition.holds, Json.isNull]
  | oneOf =>
    obtain rfl : tag = _ := by simpa using htag
    cases operand with
    | arr values =>
      obtain ⟨accepted, haccepted, rfl⟩ := map_eq_ok_iff.mp h
      obtain rfl := eq_of_listValues field haccepted
      rw [Condition.holds_oneOf]
      by_cases hnull : (row.getD field).isNull
      · simp [Passes, hnull, Json.equals_of_isNull hnull]
      · simp [Passes, hnull, Json.asArray?]
    | _ => cases h

/-- The conditions of operators hold together of the column values that pass every operator present, and
there are conditions as soon as one operator of the table is present. -/
theorem compileTags_holds (operators : Members) {table : List (String × Comparison)}
    (htable : ∀ entry ∈ table, entry ∈ Comparison.tags) {trees : List Predicate}
    (h : compileTags field operators table = .ok trees) :
    AllBranching trees ∧
      (allHold row trees = true ↔
        ∀ entry ∈ table, ∀ operand ∈ operators.get? entry.1, Passes (row.getD field) entry.1 operand) ∧
      (trees = [] → ∀ entry ∈ table, operators.get? entry.1 = none) := by
  induction table generalizing trees with
  | nil =>
    obtain rfl := Except.ok.inj h
    exact ⟨trivial, by simp [allHold], by simp⟩
  | cons entry rest ih =>
    obtain ⟨tag, op⟩ := entry
    have hrest : ∀ entry ∈ rest, entry ∈ Comparison.tags :=
      fun entry hmem => htable entry (List.mem_cons_of_mem _ hmem)
    rw [compileTags] at h
    cases hoperand : operators.get? tag with
    | none =>
      rw [hoperand] at h
      obtain ⟨hbranching, hholds, hempty⟩ := ih hrest h
      refine ⟨hbranching, ?_, ?_⟩
      · simpa [hoperand] using hholds
      · intro hnil other hmem
        rcases List.mem_cons.mp hmem with rfl | hmem
        · exact hoperand
        · exact hempty hnil other hmem
    | some operand =>
      rw [hoperand] at h
      obtain ⟨condition, hcondition, h⟩ := bind_eq_ok_iff.mp h
      obtain ⟨others, hothers, h⟩ := bind_eq_ok_iff.mp h
      obtain rfl := Except.ok.inj h
      obtain ⟨hbranching, hholds, -⟩ := ih hrest hothers
      refine ⟨⟨trivial, hbranching⟩, ?_, fun hnil => absurd hnil (List.cons_ne_nil _ _)⟩
      have hfirst := compileOperator_holds row field (htable _ List.mem_cons_self) hcondition
      simp [allHold, Predicate.holds, hfirst, hholds, hoperand]

/-- A name that means an operator is in the table of operators. -/
theorem mem_tags_of_ofTag? {tag : String} (h : Comparison.ofTag? tag ≠ none) :
    ∃ op, (tag, op) ∈ Comparison.tags := by
  cases hfind : Comparison.tags.find? fun entry => entry.1 = tag with
  | none => simp [Comparison.ofTag?, hfind] at h
  | some entry =>
    have htag : entry.1 = tag := by simpa using List.find?_some hfind
    exact ⟨entry.2, htag ▸ List.mem_of_find?_eq_some hfind⟩

/-- An object of operators compiles to the conditions of its operators, of which there is one at least. -/
theorem compileOperators_holds {operators : Members} {tree : Predicate}
    (hoperator : (Members.names operators).any isOperatorKey = true)
    (h : compileOperators field operators = .ok tree) :
    tree.Branching ∧ (tree.holds row = true ↔ FieldHolds (row.getD field) (.obj operators)) := by
  unfold compileOperators at h
  split at h
  · cases h
  · next hknown =>
    obtain ⟨trees, htrees, htree⟩ := bind_eq_ok_iff.mp h
    have htags : ∀ tag ∈ operators.names, ∃ op, (tag, op) ∈ Comparison.tags := fun tag hmem =>
      mem_tags_of_ofTag? (by simpa using List.find?_eq_none.mp hknown tag hmem)
    obtain ⟨hbranching, hholds, hempty⟩ :=
      compileTags_holds row field operators (fun _ hmem => hmem) htrees
    obtain ⟨key, hkey, hkeyOperator⟩ := List.any_eq_true.mp hoperator
    have hne : trees ≠ [] := fun hnil => by
      obtain ⟨op, hop⟩ := htags key hkey
      obtain ⟨operand, hoperand⟩ := Members.exists_get?_of_mem hkey
      exact absurd ((hempty hnil _ hop).symm.trans hoperand) (by simp)
    -- Every member is an operator of the table, and only members have operands.
    have hmeaning : allHold row trees = true ↔ FieldHolds (row.getD field) (.obj operators) := by
      rw [hholds, FieldHolds, if_pos ⟨key, hkey, hkeyOperator⟩]
      constructor
      · intro hall tag hmem operand hoperand
        obtain ⟨op, hop⟩ := htags tag hmem
        exact hall _ hop operand hoperand
      · intro hall entry _ operand hoperand
        exact hall _ (List.mem_map.mpr ⟨_, Members.mem_of_get?_eq_some hoperand, rfl⟩) operand hoperand
    match trees, hne, htree with
    | [leaf], _, htree =>
      obtain rfl := Except.ok.inj htree
      exact ⟨hbranching.1, by simpa [allHold] using hmeaning⟩
    | first :: second :: others, hne, htree =>
      obtain rfl := Except.ok.inj htree
      exact ⟨⟨hne, hbranching⟩, hmeaning⟩

/-- What is asked of a column compiles to a tree that holds of the column values that satisfy it. -/
theorem compileField_holds {value : Json} {tree : Predicate} (h : compileField field value = .ok tree) :
    tree.Branching ∧ (tree.holds row = true ↔ FieldHolds (row.getD field) value) := by
  cases value with
  | null =>
    obtain rfl := Except.ok.inj h
    exact ⟨trivial, Iff.rfl⟩
  | arr values => exact compileList_holds row field h
  | obj members =>
    by_cases hoperator : (Members.names members).any isOperatorKey = true
    · rw [compileField, if_pos hoperator] at h
      exact compileOperators_holds row field hoperator h
    · rw [compileField, if_neg hoperator] at h
      obtain rfl := Except.ok.inj h
      have hplain : ¬∃ name ∈ Members.names members, isOperatorKey name = true :=
        fun hsome => hoperator (List.any_eq_true.mpr hsome)
      refine ⟨trivial, ?_⟩
      rw [FieldHolds, if_neg hplain, Predicate.holds, Condition.holds_equal]
  | bool _ | int _ | float _ | str _ =>
    obtain rfl := Except.ok.inj h
    exact ⟨trivial, by simp only [FieldHolds, Predicate.holds, Condition.holds_equal]⟩

end Column

/-! ## Compiling whole filters -/

mutual

/-- A filter with members compiles to a tree that holds of the rows that satisfy it. -/
theorem compileGroup_holds (row : Row) (members : List (String × Json)) (tree : Predicate)
    (h : compileGroup members = .ok tree) :
    tree.Branching ∧ (tree.holds row = true ↔ Holds row members) := by
  match members with
  | [] => cases h
  | (key, value) :: rest =>
    obtain ⟨first, hfirst, h⟩ := bind_eq_ok_iff.mp h
    obtain ⟨others, hothers, h⟩ := bind_eq_ok_iff.mp h
    obtain ⟨hbranching, hholds⟩ := compileEntry_holds row key value first hfirst
    obtain ⟨hbranchings, hrest⟩ := compileEntries_holds row rest others hothers
    cases others with
    | nil =>
      obtain rfl := Except.ok.inj h
      refine ⟨hbranching, ?_⟩
      rw [Holds, hholds, ← hrest]
      simp [allHold]
    | cons second more =>
      obtain rfl := Except.ok.inj h
      refine ⟨⟨List.cons_ne_nil _ _, hbranching, hbranchings⟩, ?_⟩
      rw [Predicate.holds, allHold, Bool.and_eq_true, hholds, hrest, Holds]

/-- The members of a filter compile to trees that hold together of the rows that satisfy them all. -/
theorem compileEntries_holds (row : Row) (members : List (String × Json)) (trees : List Predicate)
    (h : compileEntries members = .ok trees) :
    AllBranching trees ∧ (allHold row trees = true ↔ Holds row members) := by
  match members with
  | [] =>
    obtain rfl := Except.ok.inj h
    exact ⟨trivial, by simp [allHold, Holds]⟩
  | (key, value) :: rest =>
    obtain ⟨first, hfirst, h⟩ := bind_eq_ok_iff.mp h
    obtain ⟨others, hothers, h⟩ := bind_eq_ok_iff.mp h
    obtain rfl := Except.ok.inj h
    obtain ⟨hbranching, hholds⟩ := compileEntry_holds row key value first hfirst
    obtain ⟨hbranchings, hrest⟩ := compileEntries_holds row rest others hothers
    refine ⟨⟨hbranching, hbranchings⟩, ?_⟩
    rw [allHold, Bool.and_eq_true, hholds, hrest, Holds]

/-- A member of a filter compiles to a tree that holds of the rows that satisfy it. -/
theorem compileEntry_holds (row : Row) (key : String) (value : Json) (tree : Predicate)
    (h : compileEntry key value = .ok tree) :
    tree.Branching ∧ (tree.holds row = true ↔ EntryHolds row key value) := by
  by_cases hkey : isDisjunctionKey key = true
  · match value with
    | .arr [] => simp [compileEntry, hkey] at h
    | .arr (branch :: rest) =>
      rw [compileEntry, if_pos hkey, if_neg (by simp)] at h
      obtain ⟨trees, htrees, rfl⟩ := map_eq_ok_iff.mp h
      obtain ⟨hbranchings, hne, hholds⟩ := compileBranches_holds row key (branch :: rest) trees htrees
      refine ⟨⟨hne (List.cons_ne_nil _ _), hbranchings⟩, ?_⟩
      rw [EntryHolds, if_pos hkey, Predicate.holds, hholds]
    | .null | .bool _ | .int _ | .float _ | .str _ | .obj _ => simp [compileEntry, hkey] at h
  · match value with
    | .arr values =>
      rw [compileEntry, if_neg hkey] at h
      rw [EntryHolds, if_neg hkey]
      exact compileField_holds row key h
    | .null | .bool _ | .int _ | .float _ | .str _ | .obj _ =>
      rw [compileEntry, if_neg hkey] at h
      · rw [EntryHolds, and_iff_right hkey]
        · exact compileField_holds row key h
        · simp
      · simp

/-- Alternatives compile to trees of which one holds when the row satisfies an alternative. -/
theorem compileBranches_holds (row : Row) (key : String) (branches : List Json)
    (trees : List Predicate) (h : compileBranches key branches = .ok trees) :
    AllBranching trees ∧ (branches ≠ [] → trees ≠ []) ∧
      (anyHolds row trees = true ↔ SomeBranchHolds row branches) := by
  match branches with
  | [] =>
    obtain rfl := Except.ok.inj h
    exact ⟨trivial, fun hne => absurd rfl hne, by simp [anyHolds, SomeBranchHolds]⟩
  | .obj members :: rest =>
    obtain ⟨first, hfirst, h⟩ := bind_eq_ok_iff.mp h
    obtain ⟨others, hothers, h⟩ := bind_eq_ok_iff.mp h
    obtain rfl := Except.ok.inj h
    obtain ⟨hbranching, hholds⟩ := compileGroup_holds row members first hfirst
    obtain ⟨hbranchings, -, hrest⟩ := compileBranches_holds row key rest others hothers
    refine ⟨⟨hbranching, hbranchings⟩, fun _ => List.cons_ne_nil _ _, ?_⟩
    rw [anyHolds, Bool.or_eq_true, hholds, hrest, SomeBranchHolds]
  | .null :: _ | .bool _ :: _ | .int _ :: _ | .float _ :: _ | .str _ :: _ | .arr _ :: _ => cases h

end

/-- A compiled and lowered filter holds of exactly the rows that satisfy the filter. -/
theorem holds_ofPredicate {filter : Filter} {tree : Option Predicate}
    (accepted : filter.compile = .ok tree) (row : Row) :
    (Clause.ofPredicate tree).holds row = true ↔ Holds row filter := by
  match filter with
  | [] =>
    obtain rfl := Except.ok.inj accepted
    simp [Clause.ofPredicate, Clause.holds, Clause.empty, anyRunHolds, Holds]
  | entry :: rest =>
    obtain ⟨root, hroot, rfl⟩ := map_eq_ok_iff.mp accepted
    obtain ⟨hbranching, hholds⟩ := compileGroup_holds row (entry :: rest) root hroot
    rw [Clause.ofPredicate, Clause.holds_lower row .and root hbranching, hholds]

/-! ## A single operator -/

section Operator

variable {column tag : String} {op : Comparison} {operand : Json} {condition : Condition}

/-- An operator alone on a column is compiled to its condition. -/
theorem compileField_operator (htag : (tag, op) ∈ Comparison.tags)
    (h : compileOperator column tag op operand = .ok condition) :
    compileField column (.obj [(tag, operand)]) = .ok (.leaf condition) := by
  have hnames : Members.names [(tag, operand)] = [tag] := rfl
  have hall : ∀ entry ∈ Comparison.tags, isOperatorKey entry.1 = true ∧ (Comparison.ofTag? entry.1).isNone = false := by
    decide
  obtain ⟨hkey, hknown⟩ := hall _ htag
  have htags : compileTags column [(tag, operand)] Comparison.tags = .ok [.leaf condition] := by
    simp only [Comparison.tags, List.mem_cons, Prod.mk.injEq, List.not_mem_nil, or_false] at htag
    rcases htag with ⟨rfl, rfl⟩ | ⟨rfl, rfl⟩ | ⟨rfl, rfl⟩ | ⟨rfl, rfl⟩ | ⟨rfl, rfl⟩ | ⟨rfl, rfl⟩ | ⟨rfl, rfl⟩ <;>
      simp [Comparison.tags, compileTags, Members.get?, h] <;> rfl
  rw [compileField, hnames, if_pos (by simp [hkey]), compileOperators, hnames, htags]
  simp only [List.find?_cons, hknown, List.find?_nil]
  rfl

/-- A filter that is an operator on a column is compiled to the condition of the operator, and holds when that does. -/
theorem compile_operator (hcolumn : isDisjunctionKey column = false) (htag : (tag, op) ∈ Comparison.tags)
    (h : compileOperator column tag op operand = .ok condition) :
    ∃ tree, Filter.compile [(column, .obj [(tag, operand)])] = .ok tree ∧
      ∀ row, (Clause.ofPredicate tree).holds row = condition.holds row := by
  have hkey : ¬isDisjunctionKey column = true := by simp [hcolumn]
  have hentry : compileEntry column (.obj [(tag, operand)]) = .ok (.leaf condition) := by
    rw [compileEntry, if_neg hkey, compileField_operator htag h]
    exact fun _ => Json.noConfusion
  refine ⟨some (.leaf condition), ?_, fun row => ?_⟩
  · simp only [compile, compileGroup, hentry]
    rfl
  · rw [Clause.ofPredicate, Bool.eq_iff_iff, Clause.holds_lower row .and (.leaf condition) trivial]
    rfl

end Operator

end Filter

/-! ## Searching with a filter -/

/-- Without order, bounds and columns a selection gives the rows that its clause holds of. -/
theorem Table.select_ofClause (table : Table) (name : String) (clause : Clause) :
    table.select (Selection.ofClause name clause) = table.rows.filter clause.holds := by
  have hproject : Table.project [] = id := rfl
  simp [Table.select, Selection.ofClause, Table.matching, Table.sortRows, hproject]

/-- A projection that asks for nothing keeps every row. -/
theorem Projection.apply_empty (keep : List String) (row : Row) :
    Projection.empty.apply keep row = row := by
  simp [Projection.apply, Projection.keeps, Projection.isEmpty, Projection.empty]

/-- A search gives the rows of the table that the clause of its filter holds of. -/
theorem Database.run_find (db : Database) (model : Model) {filter : Filter} {tree : Option Predicate}
    {table : Table} (accepted : filter.compile = .ok tree) (distinct : filter.names.Nodup)
    (stored : db.store.table model.table = .ok table) :
    ∃ request, db.find model (.obj filter) = .ok request ∧
      (db.run request).result =
        .ok (.rows (table.rows.filter (Clause.ofPredicate tree).holds)) := by
  refine ⟨{ db.request model .select with filter := filter }, ?_, ?_⟩
  · change Except.ok { db.request model .select with filter := Members.ofEntries filter } = _
    rw [Members.ofEntries_of_nodup distinct]
  · have hselect : db.store.select (Selection.ofClause model.table (Clause.ofPredicate tree)) =
        .ok (table.rows.filter (Clause.ofPredicate tree).holds) := by
      rw [Store.select, Selection.ofClause, stored]
      exact congrArg Except.ok (Table.select_ofClause table model.table _)
    have hcompile : Request.compile { db.request model .select with filter := filter } db.registry =
        .ok { model, kind := .select, tree,
              statement := .select (Selection.ofClause model.table (Clause.ofPredicate tree)),
              projection := .empty, populate := [], first := false } := by
      simp only [Request.compile, accepted]
      rfl
    have happly : Projection.empty.apply [] = id := funext fun row => Projection.apply_empty [] row
    rw [Database.run, hcompile]
    simp [Database.execute, Database.runStatement, hselect, Database.liftStore, Database.finish,
      Load.loadAll, Except.map, bind, Except.bind, pure, Except.pure, happly]

/-- An accepted filter means what recursion on it says: compiled and lowered it holds of exactly the rows
that satisfy it, and a search with it gives exactly those rows of the table, in the order of the table. -/
theorem Filter.search_meaning {filter : Filter} {tree : Option Predicate}
    (accepted : filter.compile = .ok tree) :
    (∀ row, (Clause.ofPredicate tree).holds row = true ↔ Filter.Holds row filter) ∧
      ∀ (db : Database) (model : Model) (table : Table), filter.names.Nodup →
        db.store.table model.table = .ok table →
        ∃ request, db.find model (.obj filter) = .ok request ∧
          (db.run request).result =
            .ok (.rows (table.rows.filter fun row => Filter.Holds row filter)) := by
  refine ⟨Filter.holds_ofPredicate accepted, fun db model table distinct stored => ?_⟩
  obtain ⟨request, hrequest, hresult⟩ := db.run_find model accepted distinct stored
  refine ⟨request, hrequest, hresult.trans ?_⟩
  congr 3
  funext row
  rw [Bool.eq_iff_iff, Filter.holds_ofPredicate accepted row, decide_eq_true_iff]

/-- The meaning at work: alternatives with operators and a list with null, beside a null test. -/
theorem Filter.search_meaning_alternatives :
    let filter : Filter :=
      [("$or", .arr
          [.obj [("age", .obj [("$gte", .ofInt 18), ("$ne", .null)])],
            .obj [("name", .arr [.null, .str "Ann"])]]),
        ("deleted", .null)]
    let adult : Row := [("id", .ofInt 1), ("age", .ofInt 18)]
    let child : Row := [("id", .ofInt 2), ("age", .ofInt 17), ("name", .str "Bo")]
    let model : Model := ⟨"User", "user", .empty, .empty⟩
    let db : Database := ⟨.empty, ⟨.ofList [("user", ⟨[adult, child], 2⟩)]⟩, default⟩
    (∃ tree, filter.compile = .ok tree ∧ (Clause.ofPredicate tree).holds adult = true ∧
      (Clause.ofPredicate tree).holds child = false) ∧
    ∃ request, db.find model (.obj filter) = .ok request ∧
      (db.run request).result =
        .ok (.rows ([adult, child].filter fun row => Filter.Holds row filter)) := by
  intro filter adult child model db
  have accepted : filter.compile = .ok _ := rfl
  have meaning := Filter.search_meaning accepted
  have hadult : Filter.Holds adult filter := by decide +kernel
  have hchild : ¬Filter.Holds child filter := by decide +kernel
  refine ⟨⟨_, accepted, (meaning.1 adult).mpr hadult, ?_⟩, ?_⟩
  · exact Bool.eq_false_iff.mpr fun h => hchild ((meaning.1 child).mp h)
  · exact meaning.2 db model ⟨[adult, child], 2⟩ (by decide) rfl

end SchemaQuery
