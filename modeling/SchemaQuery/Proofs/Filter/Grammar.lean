import Mathlib.Data.List.Nodup
import Mathlib.Logic.Relation
import SchemaQuery.Filter.Compile
import SchemaQuery.Proofs.Basic

/-!
# The grammar of filters

A filter object is well formed when each of its members is, by recursion on the object: alternatives are given
as an array of objects that are not empty and well formed themselves, a column as null, a scalar, a list of
scalars, an object without operators or one of known operators only. Exactly the well-formed filters are
accepted. Their trees have no conjunction of less than two and no disjunction of none, and every condition has
an operand that suits its comparison. Nothing in the grammar looks at the order of members, so that an object
is accepted in one order of its members, and of those inside of it, as in any other.
-/

namespace SchemaQuery

/-- Whether a value is an array in which there is no array and no object. -/
def Json.IsFlatList : Json → Prop
  | .arr values => ∀ value ∈ values, value.isContainer = false
  | _ => False

instance : DecidablePred Json.IsFlatList
  | .arr values => inferInstanceAs (Decidable (∀ value ∈ values, value.isContainer = false))
  | .null | .bool _ | .int _ | .float _ | .str _ | .obj _ => inferInstanceAs (Decidable False)

namespace Filter

/-- The names of the operators. -/
def operatorNames : List String :=
  ["$gt", "$gte", "$lt", "$lte", "$like", "$ne", "$in"]

/-- Whether a value can be asked of a column. An object with an operator has operators only, and the list of
`$in` is flat. -/
def FieldWellFormed : Json → Prop
  | .arr values => Json.IsFlatList (.arr values)
  | .obj members =>
    (∃ name ∈ Members.names members, isOperatorKey name) →
      (∀ name ∈ Members.names members, name ∈ operatorNames) ∧
        ∀ operand ∈ Members.get? members "$in", operand.IsFlatList
  | _ => True

instance : DecidablePred FieldWellFormed
  | .arr values => inferInstanceAs (Decidable (Json.IsFlatList (.arr values)))
  | .obj members =>
    inferInstanceAs (Decidable ((∃ name ∈ Members.names members, isOperatorKey name = true) → _ ∧ _))
  | .null | .bool _ | .int _ | .float _ | .str _ => inferInstanceAs (Decidable True)

mutual

/-- Whether every member of a filter object is well formed. -/
def WellFormed : List (String × Json) → Prop
  | [] => True
  | (key, value) :: rest => EntryWellFormed key value ∧ WellFormed rest

/-- Whether a member of a filter object is well formed: alternatives under a key for alternatives, what can be
asked of a column under any other key. -/
def EntryWellFormed (key : String) : Json → Prop
  | .arr values =>
    if isDisjunctionKey key then values ≠ [] ∧ BranchesWellFormed values
    else FieldWellFormed (.arr values)
  | value => ¬isDisjunctionKey key ∧ FieldWellFormed value

/-- Whether alternatives are well-formed filter objects that are not empty. -/
def BranchesWellFormed : List Json → Prop
  | [] => True
  | .obj members :: rest => (members ≠ [] ∧ WellFormed members) ∧ BranchesWellFormed rest
  | _ :: _ => False

end

mutual

/-- Decides whether every member of a filter object is well formed. -/
def decideWellFormed : (members : List (String × Json)) → Decidable (WellFormed members)
  | [] => inferInstanceAs (Decidable True)
  | (key, value) :: rest =>
    have := decideEntryWellFormed key value
    have := decideWellFormed rest
    inferInstanceAs (Decidable (EntryWellFormed key value ∧ WellFormed rest))

/-- Decides whether a member of a filter object is well formed. -/
def decideEntryWellFormed (key : String) : (value : Json) → Decidable (EntryWellFormed key value)
  | .arr values =>
    have := decideBranchesWellFormed values
    inferInstanceAs (Decidable (ite (isDisjunctionKey key = true) (values ≠ [] ∧ _) _))
  | .null | .bool _ | .int _ | .float _ | .str _ | .obj _ =>
    inferInstanceAs (Decidable (¬isDisjunctionKey key ∧ _))

/-- Decides whether alternatives are well-formed filter objects that are not empty. -/
def decideBranchesWellFormed : (branches : List Json) → Decidable (BranchesWellFormed branches)
  | [] => inferInstanceAs (Decidable True)
  | .obj members :: rest =>
    have := decideWellFormed members
    have := decideBranchesWellFormed rest
    inferInstanceAs (Decidable ((members ≠ [] ∧ WellFormed members) ∧ BranchesWellFormed rest))
  | .null :: _ | .bool _ :: _ | .int _ :: _ | .float _ :: _ | .str _ :: _ | .arr _ :: _ =>
    inferInstanceAs (Decidable False)

end

instance (filter : Filter) : Decidable (WellFormed filter) :=
  decideWellFormed filter

end Filter

/-- Whether the operand of a condition suits its comparison. -/
def Condition.Suited (c : Condition) : Prop :=
  match c.op with
  | .oneOf => c.operand.IsFlatList
  | .isNull | .isNotNull => c.operand = .null
  | .equal | .notEqual => c.operand ≠ .null
  | _ => True

mutual

/-- Whether every conjunction of a tree joins two at least, every disjunction one, and every condition has an
operand that suits it. -/
def Predicate.Suited : Predicate → Prop
  | .leaf condition => condition.Suited
  | .and children => 2 ≤ children.length ∧ AllSuited children
  | .or children => 1 ≤ children.length ∧ AllSuited children

/-- Whether all of some trees are so. -/
def AllSuited : List Predicate → Prop
  | [] => True
  | child :: rest => child.Suited ∧ AllSuited rest

end

/-! ## Deciding -/

/-- Whether an outcome tells if something is accepted: a good result when it is, a fault when it is not. -/
def Decides {ε α : Type} (accepted : Prop) (Good : α → Prop) : Except ε α → Prop
  | .ok result => accepted ∧ Good result
  | .error _ => ¬accepted

namespace Decides

variable {ε α β : Type} {accepted next : Prop} {Good : α → Prop} {Fine : β → Prop} {outcome : Except ε α}

/-- What is accepted may be told in other words. -/
theorem congr (h : Decides accepted Good outcome) (hiff : accepted ↔ next) : Decides next Good outcome :=
  propext hiff ▸ h

/-- A result that is good is good in a weaker sense. -/
theorem imp {Fine : α → Prop} (h : Decides accepted Good outcome) (hfine : ∀ result, Good result → Fine result) :
    Decides accepted Fine outcome := by
  cases outcome with
  | error fault => exact h
  | ok result => exact ⟨h.1, hfine result h.2⟩

/-- Two steps accept what both accept. -/
theorem bind {f : α → Except ε β} (h : Decides accepted Good outcome)
    (hf : ∀ result, Good result → Decides next Fine (f result)) :
    Decides (accepted ∧ next) Fine (outcome >>= f) := by
  cases outcome with
  | error fault => exact fun hboth => h hboth.1
  | ok result =>
    have hnext := hf result h.2
    change Decides (accepted ∧ next) Fine (f result)
    cases hlast : f result with
    | error fault =>
      rw [hlast] at hnext
      exact fun hboth => hnext hboth.2
    | ok last =>
      rw [hlast] at hnext
      exact ⟨⟨h.1, hnext.1⟩, hnext.2⟩

/-- A last step that always succeeds accepts what the first accepts. -/
theorem bind_of_true {f : α → Except ε β} (h : Decides accepted Good outcome)
    (hf : ∀ result, Good result → Decides True Fine (f result)) : Decides accepted Fine (outcome >>= f) :=
  (h.bind hf).congr (and_iff_left trivial)

/-- A result that is good is there for everything. -/
theorem ok {result : α} (h : Good result) : Decides (ε := ε) True Good (.ok result) :=
  ⟨trivial, h⟩

/-- A changed result is there when the result is. -/
theorem map {f : α → β} (h : Decides accepted Good outcome) (hf : ∀ result, Good result → Fine (f result)) :
    Decides accepted Fine (outcome.map f) := by
  cases outcome with
  | error fault => exact h
  | ok result => exact ⟨h.1, hf result h.2⟩

/-- There is a result exactly when the input is accepted. -/
theorem exists_iff (h : Decides accepted Good outcome) : (∃ result, outcome = .ok result) ↔ accepted := by
  cases outcome with
  | error fault => exact ⟨nofun, fun haccepted => absurd haccepted h⟩
  | ok result => exact ⟨fun _ => h.1, fun _ => ⟨result, rfl⟩⟩

/-- A result is good. -/
theorem good (h : Decides accepted Good outcome) {result : α} (hresult : outcome = .ok result) :
    Good result := by
  subst hresult
  exact h.2

end Decides

namespace Filter

/-! ## Columns -/

section Column

variable (field : String)

/-- A list is taken as it stands when it is flat. -/
theorem decides_listValues (values : List Json) :
    Decides (Json.IsFlatList (.arr values)) (fun taken => taken = values ∧ Json.IsFlatList (.arr values))
      (listValues field values) := by
  unfold listValues
  split
  · next hany =>
    intro hflat
    obtain ⟨value, hmem, hvalue⟩ := List.any_eq_true.mp hany
    rw [hflat value hmem] at hvalue
    cases hvalue
  · next hnone =>
    have hflat : Json.IsFlatList (.arr values) := fun value hmem =>
      Bool.eq_false_iff.mpr fun hvalue => hnone (List.any_eq_true.mpr ⟨value, hmem, hvalue⟩)
    exact ⟨hflat, rfl, hflat⟩

/-- A list of values is accepted when it is flat. -/
theorem decides_compileList (values : List Json) :
    Decides (Json.IsFlatList (.arr values)) Predicate.Suited (compileList field values) := by
  refine (decides_listValues field values).bind_of_true ?_
  rintro taken ⟨rfl, hflat⟩
  split
  · split
    · exact .ok rfl
    · next present hpresent =>
      have hsome : (Condition.oneOf field (taken.filter (!·.isNull))).Suited :=
        fun value hmem => hflat value (List.mem_of_mem_filter hmem)
      exact .ok ⟨Nat.le_add_left 1 1, hsome, rfl, trivial⟩
  · exact .ok hflat

/-- The operand of an operator is accepted unless a list is asked for and it is no flat list. -/
theorem decides_compileOperator {tag : String} {op : Comparison} (htag : (tag, op) ∈ Comparison.tags)
    (operand : Json) :
    Decides (op = .oneOf → operand.IsFlatList) Condition.Suited (compileOperator field tag op operand) := by
  cases op with
  | equal | isNull | isNotNull => simp [Comparison.tags] at htag
  | greater | atLeast | less | atMost | like => exact ⟨nofun, trivial⟩
  | notEqual =>
    cases operand with
    | null => exact ⟨nofun, rfl⟩
    | _ => exact ⟨nofun, by rintro ⟨⟩⟩
  | oneOf =>
    cases operand with
    | arr values =>
      refine ((decides_listValues field values).map ?_).congr ⟨fun h _ => h, fun h => h rfl⟩
      rintro taken ⟨rfl, hflat⟩
      exact hflat
    | _ => exact fun h => h rfl

/-- Operators are accepted when their operands are, and there is a condition for each one of the table. -/
theorem decides_compileTags (operators : Members) {table : List (String × Comparison)}
    (htable : ∀ entry ∈ table, entry ∈ Comparison.tags) :
    Decides (∀ entry ∈ table, entry.2 = .oneOf → ∀ operand ∈ operators.get? entry.1, operand.IsFlatList)
      (fun trees => AllSuited trees ∧ (trees = [] → ∀ entry ∈ table, operators.get? entry.1 = none))
      (compileTags field operators table) := by
  induction table with
  | nil => exact ⟨nofun, trivial, nofun⟩
  | cons entry rest ih =>
    obtain ⟨tag, op⟩ := entry
    rw [List.forall_mem_cons] at htable
    rw [compileTags]
    cases hoperand : operators.get? tag with
    | none =>
      refine ((ih htable.2).congr ?_).imp ?_
      · simp [hoperand]
      · rintro trees ⟨hsuited, hempty⟩
        refine ⟨hsuited, fun hnil => List.forall_mem_cons.mpr ⟨hoperand, hempty hnil⟩⟩
    | some operand =>
      refine ((decides_compileOperator field htable.1 operand).bind fun condition hcondition =>
        ((ih htable.2).bind_of_true fun others hothers => ?_)).congr ?_
      · exact .ok ⟨⟨hcondition, hothers.1⟩, nofun⟩
      · simp [hoperand]

/-- A name means no operator exactly when it is none of the names of operators. -/
theorem isNone_ofTag?_iff (tag : String) : (Comparison.ofTag? tag).isNone = true ↔ tag ∉ operatorNames := by
  have hnames : operatorNames = Comparison.tags.map Prod.fst := rfl
  rw [Comparison.ofTag?, Option.isNone_map, Option.isNone_iff_eq_none, List.find?_eq_none, hnames]
  simp only [decide_eq_true_eq, List.mem_map, not_exists, not_and]

/-- The list of `$in` is the one operand that has to be flat. -/
theorem forall_tags_iff (operators : Members) :
    (∀ entry ∈ Comparison.tags, entry.2 = .oneOf → ∀ operand ∈ operators.get? entry.1, operand.IsFlatList) ↔
      ∀ operand ∈ operators.get? "$in", operand.IsFlatList := by
  simp [Comparison.tags]

/-- An object with an operator is accepted when it has known operators only and its list is flat. -/
theorem decides_compileOperators {operators : Members}
    (hoperator : ∃ name ∈ Members.names operators, isOperatorKey name = true) :
    Decides (FieldWellFormed (.obj operators)) Predicate.Suited (compileOperators field operators) := by
  unfold compileOperators
  split
  · next tag hfind =>
    have hnone : (Comparison.ofTag? tag).isNone = true := by simpa using List.find?_some hfind
    exact fun hfield =>
      (isNone_ofTag?_iff tag).mp hnone ((hfield hoperator).1 tag (List.mem_of_find?_eq_some hfind))
  · next hfind =>
    have hknown : ∀ name ∈ operators.names, name ∈ operatorNames := fun name hname =>
      not_not.mp fun hunknown => List.find?_eq_none.mp hfind name hname ((isNone_ofTag?_iff name).mpr hunknown)
    refine ((decides_compileTags field operators fun _ hmem => hmem).bind_of_true
      fun trees ⟨hsuited, hempty⟩ => ?_).congr ?_
    · -- The object has an operator, and every operator that it has is in the table.
      have hne : trees ≠ [] := fun hnil => by
        obtain ⟨name, hname, -⟩ := hoperator
        obtain ⟨operand, hoperand⟩ := Members.exists_get?_of_mem hname
        obtain ⟨entry, hentry, rfl⟩ : ∃ entry ∈ Comparison.tags, entry.1 = name :=
          List.mem_map.mp (hknown name hname)
        rw [hempty hnil entry hentry] at hoperand
        cases hoperand
      match trees, hne with
      | [leaf], _ => exact .ok hsuited.1
      | first :: second :: others, _ => exact .ok ⟨Nat.le_add_left 2 _, hsuited⟩
    · rw [forall_tags_iff]
      exact ⟨fun hflat _ => ⟨hknown, hflat⟩, fun hfield => (hfield hoperator).2⟩

/-- What is asked of a column is accepted when it is well formed. -/
theorem decides_compileField (value : Json) :
    Decides (FieldWellFormed value) Predicate.Suited (compileField field value) := by
  cases value with
  | null => exact .ok rfl
  | arr values => exact decides_compileList field values
  | obj members =>
    by_cases hoperator : ∃ name ∈ Members.names members, isOperatorKey name = true
    · rw [compileField, if_pos (List.any_eq_true.mpr hoperator)]
      exact decides_compileOperators field hoperator
    · rw [compileField, if_neg fun hany => hoperator (List.any_eq_true.mp hany)]
      exact ⟨fun hsome => absurd hsome hoperator, by rintro ⟨⟩⟩
  | bool _ | int _ | float _ | str _ => exact .ok (by rintro ⟨⟩)

end Column

/-! ## Whole filters -/

mutual

/-- A filter is accepted when it has a member and all of them are well formed. -/
theorem decides_compileGroup (members : List (String × Json)) :
    Decides (members ≠ [] ∧ WellFormed members) Predicate.Suited (compileGroup members) := by
  match members with
  | [] => exact fun h => h.1 rfl
  | (key, value) :: rest =>
    rw [compileGroup]
    refine ((decides_compileEntry key value).bind fun first hfirst =>
      ((decides_compileEntries rest).bind_of_true fun others hothers => ?_)).congr ?_
    · match others, hothers with
      | [], _ => exact .ok hfirst
      | second :: more, hothers => exact .ok ⟨Nat.le_add_left 2 _, hfirst, hothers⟩
    · simp [WellFormed]

/-- The members of a filter are accepted when all of them are well formed. -/
theorem decides_compileEntries (members : List (String × Json)) :
    Decides (WellFormed members) AllSuited (compileEntries members) := by
  match members with
  | [] => exact ⟨trivial, trivial⟩
  | (key, value) :: rest =>
    rw [compileEntries]
    refine ((decides_compileEntry key value).bind fun first hfirst =>
      ((decides_compileEntries rest).bind_of_true fun others hothers => ?_)).congr ?_
    · exact .ok ⟨hfirst, hothers⟩
    · simp [WellFormed]

/-- A member of a filter is accepted when it is well formed. -/
theorem decides_compileEntry (key : String) (value : Json) :
    Decides (EntryWellFormed key value) Predicate.Suited (compileEntry key value) := by
  by_cases hkey : isDisjunctionKey key = true
  · match value with
    | .arr [] =>
      simp [compileEntry, hkey, Decides, EntryWellFormed]
    | .arr (branch :: rest) =>
      rw [compileEntry, if_pos hkey, if_neg (by simp)]
      refine ((decides_compileBranches key (branch :: rest)).map ?_).congr ?_
      · rintro trees ⟨hsuited, hlength⟩
        exact ⟨by simp [hlength], hsuited⟩
      · simp [EntryWellFormed, hkey]
    | .null | .bool _ | .int _ | .float _ | .str _ | .obj _ =>
      simp [compileEntry, hkey, Decides, EntryWellFormed]
  · match value with
    | .arr values =>
      rw [compileEntry, if_neg hkey]
      refine (decides_compileField key (.arr values)).congr ?_
      rw [EntryWellFormed, if_neg hkey]
    | .null | .bool _ | .int _ | .float _ | .str _ | .obj _ =>
      rw [compileEntry, if_neg hkey]
      · refine (decides_compileField key _).congr ?_
        rw [EntryWellFormed, and_iff_right hkey]
        simp
      · simp

/-- Alternatives are accepted when they are well-formed filters that are not empty. -/
theorem decides_compileBranches (key : String) (branches : List Json) :
    Decides (BranchesWellFormed branches)
      (fun trees => AllSuited trees ∧ trees.length = branches.length) (compileBranches key branches) := by
  match branches with
  | [] => exact ⟨trivial, trivial, rfl⟩
  | .obj members :: rest =>
    rw [compileBranches]
    refine ((decides_compileGroup members).bind fun first hfirst =>
      ((decides_compileBranches key rest).bind_of_true fun others hothers => ?_)).congr ?_
    · exact .ok ⟨⟨hfirst, hothers.1⟩, by simp [hothers.2]⟩
    · simp [BranchesWellFormed]
  | .null :: _ | .bool _ :: _ | .int _ :: _ | .float _ :: _ | .str _ :: _ | .arr _ :: _ =>
    exact fun h => h

end

/-- A filter is accepted when it is well formed, and gives no tree only if it is empty. -/
theorem decides_compile (filter : Filter) :
    Decides (WellFormed filter) (fun tree => (tree = none ↔ filter = []) ∧ ∀ root ∈ tree, root.Suited)
      filter.compile := by
  match filter with
  | [] => exact ⟨trivial, by simp, nofun⟩
  | entry :: rest =>
    refine ((decides_compileGroup (entry :: rest)).map ?_).congr ?_
    · intro root hroot
      simpa using hroot
    · exact and_iff_right (List.cons_ne_nil _ _)

end Filter

/-! ## The order of members -/

/-- One value is another in which the members of one object, anywhere in it, are put in another order. -/
inductive Json.Rearranged : Json → Json → Prop
  | members {members other : Members} (order : members.Perm other) (distinct : members.names.Nodup) :
      Rearranged (.obj members) (.obj other)
  | item (before after : List Json) {value other : Json} (inside : Rearranged value other) :
      Rearranged (.arr (before ++ value :: after)) (.arr (before ++ other :: after))
  | member (before after : Members) (name : String) {value other : Json} (inside : Rearranged value other) :
      Rearranged (.obj (before ++ (name, value) :: after)) (.obj (before ++ (name, other) :: after))

/-- Members with distinct names answer the same in any order. -/
theorem Members.get?_of_perm {members other : Members} (order : members.Perm other)
    (distinct : members.names.Nodup) (name : String) : members.get? name = other.get? name := by
  induction order with
  | nil => rfl
  | cons entry _ ih =>
    simp only [Members.names, List.map_cons, List.nodup_cons] at distinct
    simp only [get?, ih distinct.2]
  | swap first second rest =>
    simp only [Members.names, List.map_cons, List.nodup_cons, List.mem_cons, not_or] at distinct
    simp only [get?]
    by_cases hfirst : first.1 = name
    · have hsecond : second.1 ≠ name := fun h => distinct.1.1 (h.trans hfirst.symm)
      rw [if_pos hfirst, if_neg hsecond, if_pos hfirst]
    · rw [if_neg hfirst, if_neg hfirst]
  | trans hleft _ ihleft ihright =>
    exact (ihleft distinct).trans (ihright ((hleft.map Prod.fst).nodup_iff.mp distinct))

namespace Filter

/-- Whether a value is a well-formed filter object. -/
def IsWellFormed : Json → Prop
  | .obj members => WellFormed members
  | _ => False

/-- A filter is well formed when each of its members is. -/
theorem wellFormed_iff {members : Members} :
    WellFormed members ↔ ∀ entry ∈ members, EntryWellFormed entry.1 entry.2 := by
  induction members with
  | nil => exact ⟨fun _ => nofun, fun _ => trivial⟩
  | cons entry rest ih => rw [WellFormed, ih, List.forall_mem_cons]

/-- Alternatives are well formed when each of them is a well-formed filter that is not empty. -/
theorem branchesWellFormed_iff {branches : List Json} :
    BranchesWellFormed branches ↔ ∀ branch ∈ branches, branch ≠ .obj [] ∧ IsWellFormed branch := by
  induction branches with
  | nil => exact ⟨fun _ => nofun, fun _ => trivial⟩
  | cons branch rest ih =>
    rw [List.forall_mem_cons, ← ih]
    cases branch with
    | obj members => simp [BranchesWellFormed, IsWellFormed]
    | _ => simp [BranchesWellFormed, IsWellFormed]

/-- Two values that the grammar does not tell apart, wherever they stand in a filter. -/
structure Alike (value other : Json) : Prop where
  container : value.isContainer = other.isContainer
  empty : value = .obj [] ↔ other = .obj []
  flat : value.IsFlatList ↔ other.IsFlatList
  field : FieldWellFormed value ↔ FieldWellFormed other
  entry : ∀ key, EntryWellFormed key value ↔ EntryWellFormed key other
  filter : IsWellFormed value ↔ IsWellFormed other

/-- Objects that are alike as filters and as what is asked of a column are alike. -/
theorem Alike.of_members {members other : Members} (hempty : members = [] ↔ other = [])
    (hfield : FieldWellFormed (.obj members) ↔ FieldWellFormed (.obj other))
    (hfilter : WellFormed members ↔ WellFormed other) : Alike (.obj members) (.obj other) where
  container := rfl
  empty := by simpa using hempty
  flat := Iff.rfl
  field := hfield
  entry key := and_congr_right fun _ => hfield
  filter := hfilter

variable {value other : Json}

/-- A value in an array may be replaced by one that is alike. -/
theorem Alike.item (h : Alike value other) (before after : List Json) :
    Alike (.arr (before ++ value :: after)) (.arr (before ++ other :: after)) := by
  have hflat : Json.IsFlatList (.arr (before ++ value :: after)) ↔
      Json.IsFlatList (.arr (before ++ other :: after)) := by
    simp only [Json.IsFlatList, List.forall_mem_append, List.forall_mem_cons, h.container]
  have hbranches : BranchesWellFormed (before ++ value :: after) ↔
      BranchesWellFormed (before ++ other :: after) := by
    simp only [branchesWellFormed_iff, List.forall_mem_append, List.forall_mem_cons, h.empty, h.filter, ne_eq]
  refine ⟨rfl, by simp, hflat, hflat, fun key => ?_, Iff.rfl⟩
  simp only [EntryWellFormed, hbranches]
  split
  · simp
  · exact hflat

/-- The operand under a name is flat as before when a member is replaced by one that is alike. -/
theorem Alike.flat_get? (h : Alike value other) (before after : Members) (name wanted : String) :
    (∀ operand ∈ Members.get? (before ++ (name, value) :: after) wanted, operand.IsFlatList) ↔
      ∀ operand ∈ Members.get? (before ++ (name, other) :: after) wanted, operand.IsFlatList := by
  induction before with
  | nil =>
    by_cases hname : name = wanted
    · simp [Members.get?, hname, h.flat]
    · simp [Members.get?, hname]
  | cons entry rest ih =>
    by_cases hname : entry.1 = wanted
    · simp [Members.get?, hname]
    · simpa [Members.get?, hname] using ih

/-- A member of an object may be replaced by one of the same name that is alike. -/
theorem Alike.member (h : Alike value other) (before after : Members) (name : String) :
    Alike (.obj (before ++ (name, value) :: after)) (.obj (before ++ (name, other) :: after)) := by
  refine .of_members (by simp) ?_ ?_
  · have hnames : Members.names (before ++ (name, value) :: after) =
        Members.names (before ++ (name, other) :: after) := by simp [Members.names]
    simp only [FieldWellFormed, hnames, h.flat_get?]
  · simp only [wellFormed_iff, List.forall_mem_append, List.forall_mem_cons, h.entry]

/-- Members of distinct names may come in any order. -/
theorem Alike.members {members other : Members} (order : members.Perm other)
    (distinct : members.names.Nodup) : Alike (.obj members) (.obj other) := by
  refine .of_members ?_ ?_ ?_
  · rw [← List.length_eq_zero_iff, ← List.length_eq_zero_iff, order.length_eq]
  · have hnames (name : String) : name ∈ Members.names members ↔ name ∈ Members.names other :=
      (order.map Prod.fst).mem_iff
    simp only [FieldWellFormed, hnames, Members.get?_of_perm order distinct]
  · simp only [wellFormed_iff, order.mem_iff]

/-- The grammar does not tell a value from one in which the members of an object come in another order. -/
theorem alike_of_rearranged (h : value.Rearranged other) : Alike value other := by
  induction h with
  | members order distinct => exact .members order distinct
  | item before after _ ih => exact ih.item before after
  | member before after name _ ih => exact ih.member before after name

/-- A filter object is well formed in any order of its members and of those inside of it. -/
theorem isWellFormed_iff_of_rearranged (h : Relation.ReflTransGen Json.Rearranged value other) :
    IsWellFormed value ↔ IsWellFormed other := by
  induction h with
  | refl => rfl
  | tail _ hstep ih => exact ih.trans (alike_of_rearranged hstep).filter

/-! ## The grammar -/

/-- A filter is accepted exactly when it is well formed, gives no tree exactly when it is empty, and gives a tree
in which every conjunction joins two at least, every disjunction one, and every condition has an operand that
suits it. In whatever order the members come, of the filter and of all objects inside of it, it is accepted or
not as before. -/
theorem compile_decides (filter : Filter) :
    ((∃ tree, filter.compile = .ok tree) ↔ WellFormed filter) ∧
      (filter.compile = .ok none ↔ filter = []) ∧
      (∀ tree, filter.compile = .ok (some tree) → tree.Suited) ∧
      ∀ other : Filter, Relation.ReflTransGen Json.Rearranged (.obj filter) (.obj other) →
        ((∃ tree, filter.compile = .ok tree) ↔ ∃ tree, other.compile = .ok tree) := by
  have hdecides := decides_compile filter
  refine ⟨hdecides.exists_iff, ⟨fun h => (hdecides.good h).1.mp rfl, fun h => h ▸ rfl⟩,
    fun tree htree => (hdecides.good htree).2 tree rfl, fun other horder => ?_⟩
  rw [hdecides.exists_iff, (decides_compile other).exists_iff]
  exact isWellFormed_iff_of_rearranged horder

/-- The grammar at work: alternatives with operators and a list with null, beside a null test, are accepted, and
so they are with the members and the operators the other way round. -/
theorem compile_decides_alternatives :
    let adults : List Json := [.ofInt 18, .ofInt 19]
    let named : Json := .obj [("name", .arr [.null, .str "Ann"])]
    let filter : Filter :=
      [("$or", .arr [.obj [("age", .obj [("$gte", .ofInt 18), ("$in", .arr adults)])], named]), ("deleted", .null)]
    let other : Filter :=
      [("deleted", .null), ("$or", .arr [.obj [("age", .obj [("$in", .arr adults), ("$gte", .ofInt 18)])], named])]
    Relation.ReflTransGen Json.Rearranged (.obj filter) (.obj other) ∧ WellFormed filter ∧
      (∃ tree, filter.compile = .ok (some tree) ∧ tree.Suited) ∧ ∃ tree, other.compile = .ok tree := by
  intro adults named filter other
  have grammar := compile_decides filter
  have accepted : filter.compile = .ok (some _) := rfl
  have hoperators : Json.Rearranged (.obj [("$gte", .ofInt 18), ("$in", .arr adults)])
      (.obj [("$in", .arr adults), ("$gte", .ofInt 18)]) := .members (.swap _ _ []) (by decide)
  have hinside := Json.Rearranged.member [] [("deleted", .null)] "$or"
    (.item [] [named] (.member [] [] "age" hoperators))
  have horder : Relation.ReflTransGen Json.Rearranged (.obj filter) (.obj other) :=
    .tail (.single hinside) (.members (.swap _ _ []) (by decide))
  exact ⟨horder, grammar.1.mp ⟨_, accepted⟩, ⟨_, accepted, grammar.2.2.1 _ accepted⟩,
    (grammar.2.2.2 other horder).mp ⟨_, accepted⟩⟩

/-- Alternatives that are empty, or one of which is, are not well formed, nor is an operator beside a plain name
or a list in the list of `$in`. -/
example :
    ¬WellFormed [("$or", .arr [])] ∧ ¬WellFormed [("a", .null), ("$or2", .arr [.obj []])] ∧
      ¬WellFormed [("a", .obj [("$gt", .null), ("b", .null)])] ∧
      ¬WellFormed [("a", .obj [("$in", .arr [.arr []])])] := by
  decide +kernel

end Filter

end SchemaQuery
