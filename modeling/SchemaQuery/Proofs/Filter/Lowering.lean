import SchemaQuery.Filter.Lowering

/-!
# The value of a lowered tree

The plain value of a tree reads conjunctions and disjunctions off its nodes. A lowered tree is a row of
steps with one connective, the other one standing only inside groups; such a row needs no rule on which
connective binds tighter. Lowering therefore keeps the value of every tree whose nodes have children.

The connectives of a lowered tree alternate from one depth to the next, and its conditions, read over all
depths, are the leaves of the tree.
-/

namespace SchemaQuery

mutual

/-- The plain value of a tree on a row. -/
def Predicate.holds (row : Row) : Predicate → Bool
  | .leaf condition => condition.holds row
  | .and children => allHold row children
  | .or children => anyHolds row children

/-- Whether every tree holds of a row. -/
def allHold (row : Row) : List Predicate → Bool
  | [] => true
  | child :: rest => child.holds row && allHold row rest

/-- Whether some tree holds of a row. -/
def anyHolds (row : Row) : List Predicate → Bool
  | [] => false
  | child :: rest => child.holds row || anyHolds row rest

end

mutual

/-- Whether every node of a tree has children. -/
def Predicate.Branching : Predicate → Prop
  | .leaf _ => True
  | .and children => children ≠ [] ∧ AllBranching children
  | .or children => children ≠ [] ∧ AllBranching children

/-- Whether every node of some trees has children. -/
def AllBranching : List Predicate → Prop
  | [] => True
  | child :: rest => child.Branching ∧ AllBranching rest

end

mutual

/-- Whether every group of a step holds steps. -/
def Item.Solid : Item → Prop
  | .condition _ _ => True
  | .group _ items => items ≠ [] ∧ AllSolid items

/-- Whether every group of some steps holds steps. -/
def AllSolid : List Item → Prop
  | [] => True
  | item :: rest => item.Solid ∧ AllSolid rest

end

/-- The value of steps that are all joined by one connective. -/
def Combine.value (row : Row) : Combine → List Item → Bool
  | .and, items => items.all (Item.holds row)
  | .or, items => items.any (Item.holds row)

/-- Steps one after another are solid when both parts are. -/
theorem allSolid_append {left right : List Item} (hleft : AllSolid left) (hright : AllSolid right) :
    AllSolid (left ++ right) := by
  induction left with
  | nil => exact hright
  | cons item rest ih => exact ⟨hleft.1, ih hleft.2⟩

/-- A connective distributes over steps one after another. -/
theorem Combine.value_append (row : Row) (combine : Combine) (left right : List Item) :
    combine.value row (left ++ right) =
      match combine with
      | .and => combine.value row left && combine.value row right
      | .or => combine.value row left || combine.value row right := by
  cases combine
  · exact List.all_append
  · exact List.any_append

section Evaluation

variable (row : Row)

/-- How the first step joins is of no account. -/
theorem anyRunHolds_cons_first (item : Item) (rest : List Item) :
    anyRunHolds row (item :: rest) false true true = anyRunHolds row rest false (item.holds row) false := by
  simp [anyRunHolds]

/-- Steps joined by `and` make one run. -/
theorem anyRunHolds_of_and {items : List Item} (h : ∀ item ∈ items, item.combine = .and)
    (done run first : Bool) :
    anyRunHolds row items done run first = (done || (run && items.all (Item.holds row))) := by
  induction items generalizing run first with
  | nil => simp [anyRunHolds]
  | cons item rest ih =>
    have hitem : item.combine = .and := h item List.mem_cons_self
    have hrest : ∀ other ∈ rest, other.combine = .and :=
      fun other hmem => h other (List.mem_cons_of_mem _ hmem)
    have hnot : (!first && item.combine == .or) = false := by
      rw [hitem]
      exact Bool.and_false _
    rw [anyRunHolds, hnot, if_neg Bool.false_ne_true, ih hrest, List.all_cons, Bool.and_assoc]

/-- Each step joined by `or` behind another begins a run of its own. -/
theorem anyRunHolds_of_or {items : List Item} (h : ∀ item ∈ items, item.combine = .or)
    (done run : Bool) :
    anyRunHolds row items done run false = (done || run || items.any (Item.holds row)) := by
  induction items generalizing done run with
  | nil => simp [anyRunHolds]
  | cons item rest ih =>
    have hitem : item.combine = .or := h item List.mem_cons_self
    have hrest : ∀ other ∈ rest, other.combine = .or :=
      fun other hmem => h other (List.mem_cons_of_mem _ hmem)
    rw [anyRunHolds, hitem, ih hrest, List.any_cons]
    simp [Bool.or_assoc]

/-- A row of steps with one connective has the value of that connective, if there are steps at all. -/
theorem anyRunHolds_of_joined (combine : Combine) {items : List Item} (hne : items ≠ [])
    (h : ∀ item ∈ items, item.combine = combine) :
    anyRunHolds row items false true true = combine.value row items := by
  cases combine with
  | and => simpa [Combine.value] using anyRunHolds_of_and row h false true true
  | or =>
    cases items with
    | nil => exact absurd rfl hne
    | cons item rest =>
      -- The first step joins nothing, so the run that it begins is its own.
      rw [anyRunHolds_cons_first, anyRunHolds_of_or row fun other hmem => h other (List.mem_cons_of_mem _ hmem)]
      simp [Combine.value]

end Evaluation

mutual

/-- The steps of a tree are all joined by the connective of their row. -/
theorem Predicate.combine_of_mem_steps (combine : Combine) (tree : Predicate) :
    ∀ item ∈ tree.steps combine, item.combine = combine := by
  cases tree with
  | leaf condition => simp [Predicate.steps, Item.combine]
  | and children =>
    cases combine with
    | and => exact combine_of_mem_stepsOf .and children
    | or => simp [Predicate.steps, Item.combine]
  | or children =>
    cases combine with
    | and => simp [Predicate.steps, Item.combine]
    | or => exact combine_of_mem_stepsOf .or children

/-- The steps of trees are all joined by the connective of their row. -/
theorem combine_of_mem_stepsOf (combine : Combine) (children : List Predicate) :
    ∀ item ∈ stepsOf combine children, item.combine = combine := by
  cases children with
  | nil => simp [stepsOf]
  | cons child rest =>
    intro item hmem
    rw [stepsOf, List.mem_append] at hmem
    rcases hmem with hmem | hmem
    · exact child.combine_of_mem_steps combine item hmem
    · exact combine_of_mem_stepsOf combine rest item hmem

end

mutual

/-- A tree whose nodes have children makes steps, and no empty group among them. -/
theorem Predicate.steps_solid (combine : Combine) (tree : Predicate) (h : tree.Branching) :
    tree.steps combine ≠ [] ∧ AllSolid (tree.steps combine) := by
  cases tree with
  | leaf condition => exact ⟨List.cons_ne_nil _ _, trivial, trivial⟩
  | and children =>
    obtain ⟨hne, hsolid⟩ := stepsOf_solid .and children h.1 h.2
    cases combine with
    | and => exact ⟨hne, hsolid⟩
    | or => exact ⟨List.cons_ne_nil _ _, ⟨hne, hsolid⟩, trivial⟩
  | or children =>
    obtain ⟨hne, hsolid⟩ := stepsOf_solid .or children h.1 h.2
    cases combine with
    | and => exact ⟨List.cons_ne_nil _ _, ⟨hne, hsolid⟩, trivial⟩
    | or => exact ⟨hne, hsolid⟩

/-- Trees whose nodes have children make steps, if there are trees at all. -/
theorem stepsOf_solid (combine : Combine) (children : List Predicate) (hne : children ≠ [])
    (h : AllBranching children) :
    stepsOf combine children ≠ [] ∧ AllSolid (stepsOf combine children) := by
  cases children with
  | nil => exact absurd rfl hne
  | cons child rest =>
    obtain ⟨hchild, hsolid⟩ := child.steps_solid combine h.1
    refine ⟨fun hnil => hchild (List.append_eq_nil_iff.mp hnil).1, allSolid_append hsolid ?_⟩
    cases rest with
    | nil => trivial
    | cons other others => exact (stepsOf_solid combine (other :: others) (List.cons_ne_nil _ _) h.2).2

end

mutual

/-- The steps of a tree have its value. -/
theorem Predicate.value_steps (row : Row) (combine : Combine) (tree : Predicate) (h : tree.Branching) :
    combine.value row (tree.steps combine) = tree.holds row := by
  cases tree with
  | leaf condition =>
    cases combine <;> simp [Predicate.steps, Combine.value, Item.holds, Predicate.holds]
  | and children =>
    have hvalue := value_stepsOf row .and children h.2
    cases combine with
    | and => exact hvalue
    | or =>
      have hgroup := anyRunHolds_of_joined row .and (stepsOf_solid .and children h.1 h.2).1
        (combine_of_mem_stepsOf .and children)
      simpa [Predicate.steps, Combine.value, Item.holds, Predicate.holds] using hgroup.trans hvalue
  | or children =>
    have hvalue := value_stepsOf row .or children h.2
    cases combine with
    | and =>
      have hgroup := anyRunHolds_of_joined row .or (stepsOf_solid .or children h.1 h.2).1
        (combine_of_mem_stepsOf .or children)
      simpa [Predicate.steps, Combine.value, Item.holds, Predicate.holds] using hgroup.trans hvalue
    | or => exact hvalue

/-- The steps of trees have the value that their connective gives to the trees. -/
theorem value_stepsOf (row : Row) (combine : Combine) (children : List Predicate)
    (h : AllBranching children) :
    combine.value row (stepsOf combine children) =
      match combine with
      | .and => allHold row children
      | .or => anyHolds row children := by
  cases children with
  | nil => cases combine <;> rfl
  | cons child rest =>
    rw [stepsOf, Combine.value_append, child.value_steps row combine h.1,
      value_stepsOf row combine rest h.2]
    cases combine <;> rfl

end

mutual

/-- A step without empty groups is added as it stands. -/
theorem Clause.push_of_solid (clause : Clause) (item : Item) (h : item.Solid) :
    clause.push item = ⟨clause.items ++ [item]⟩ := by
  cases item with
  | condition combine condition => rfl
  | group combine items =>
    have hinner : Clause.pushAll .empty items = ⟨items⟩ := Clause.pushAll_of_solid .empty items h.2
    have hne : (⟨items⟩ : Clause).isEmpty = false := List.isEmpty_eq_false_iff.mpr h.1
    rw [Clause.push, hinner, Clause.pushGroup, hne, if_neg Bool.false_ne_true]

/-- Steps without empty groups are added as they stand. -/
theorem Clause.pushAll_of_solid (clause : Clause) (items : List Item) (h : AllSolid items) :
    clause.pushAll items = ⟨clause.items ++ items⟩ := by
  cases items with
  | nil => simp [Clause.pushAll]
  | cons item rest =>
    rw [Clause.pushAll, Clause.push_of_solid clause item h.1, Clause.pushAll_of_solid _ rest h.2]
    simp

end

/-- Lowering a tree whose nodes have children keeps its value, whatever the row it begins in. -/
theorem Clause.holds_lower (row : Row) (combine : Combine) (tree : Predicate) (h : tree.Branching) :
    (Clause.lower combine tree).holds row = tree.holds row := by
  obtain ⟨hne, hsolid⟩ := tree.steps_solid combine h
  have hitems : Clause.lower combine tree = ⟨tree.steps combine⟩ :=
    Clause.pushAll_of_solid .empty _ hsolid
  rw [hitems]
  exact (anyRunHolds_of_joined row combine hne (tree.combine_of_mem_steps combine)).trans
    (tree.value_steps row combine h)

/-! ## Layers -/

/-- The opposite connective. -/
def Combine.opposite : Combine → Combine
  | .and => .or
  | .or => .and

mutual

/-- Whether a step is joined by a connective and, if it is a group, holds steps that are all joined by the
opposite one, and so at every depth. -/
def Item.Layered (combine : Combine) : Item → Prop
  | .condition own _ => own = combine
  | .group own items => own = combine ∧ items ≠ [] ∧ AllLayered combine.opposite items

/-- Whether all steps of a row are joined by one connective, and the connectives alternate with depth. -/
def AllLayered (combine : Combine) : List Item → Prop
  | [] => True
  | item :: rest => item.Layered combine ∧ AllLayered combine rest

end

mutual

/-- The conditions of a step over all depths, from left to right. -/
def Item.conditions : Item → List Condition
  | .condition _ condition => [condition]
  | .group _ items => conditionsOf items

/-- The conditions of steps over all depths, from left to right. -/
def conditionsOf : List Item → List Condition
  | [] => []
  | item :: rest => item.conditions ++ conditionsOf rest

end

/-- Rows with one connective, one after another, are such a row. -/
theorem allLayered_append {combine : Combine} {left right : List Item} (hleft : AllLayered combine left)
    (hright : AllLayered combine right) : AllLayered combine (left ++ right) := by
  induction left with
  | nil => exact hright
  | cons item rest ih => exact ⟨hleft.1, ih hleft.2⟩

/-- The conditions of rows one after another come one after another. -/
theorem conditionsOf_append (left right : List Item) :
    conditionsOf (left ++ right) = conditionsOf left ++ conditionsOf right := by
  induction left with
  | nil => rfl
  | cons item rest ih => rw [List.cons_append, conditionsOf, conditionsOf, ih, List.append_assoc]

mutual

/-- The connectives in the steps of a tree alternate with depth. -/
theorem Predicate.steps_layered (combine : Combine) (tree : Predicate) (h : tree.Branching) :
    AllLayered combine (tree.steps combine) := by
  cases tree with
  | leaf condition => exact ⟨rfl, trivial⟩
  | and children =>
    have hlayers := stepsOf_layered .and children h.2
    cases combine with
    | and => exact hlayers
    | or => exact ⟨⟨rfl, (stepsOf_solid .and children h.1 h.2).1, hlayers⟩, trivial⟩
  | or children =>
    have hlayers := stepsOf_layered .or children h.2
    cases combine with
    | and => exact ⟨⟨rfl, (stepsOf_solid .or children h.1 h.2).1, hlayers⟩, trivial⟩
    | or => exact hlayers

/-- The connectives in the steps of trees alternate with depth. -/
theorem stepsOf_layered (combine : Combine) (children : List Predicate) (h : AllBranching children) :
    AllLayered combine (stepsOf combine children) := by
  cases children with
  | nil => trivial
  | cons child rest =>
    exact allLayered_append (child.steps_layered combine h.1) (stepsOf_layered combine rest h.2)

end

mutual

/-- The conditions in the steps of a tree are its leaves. -/
theorem Predicate.conditionsOf_steps (combine : Combine) (tree : Predicate) :
    conditionsOf (tree.steps combine) = tree.leaves := by
  cases tree with
  | leaf condition => rfl
  | and children =>
    cases combine with
    | and => exact conditionsOf_stepsOf .and children
    | or => exact (List.append_nil _).trans (conditionsOf_stepsOf .and children)
  | or children =>
    cases combine with
    | and => exact (List.append_nil _).trans (conditionsOf_stepsOf .or children)
    | or => exact conditionsOf_stepsOf .or children

/-- The conditions in the steps of trees are their leaves. -/
theorem conditionsOf_stepsOf (combine : Combine) (children : List Predicate) :
    conditionsOf (stepsOf combine children) = leavesOf children := by
  cases children with
  | nil => rfl
  | cons child rest =>
    rw [stepsOf, conditionsOf_append, child.conditionsOf_steps combine,
      conditionsOf_stepsOf combine rest, leavesOf]

end

/-- A tree whose nodes have children is lowered to a clause that keeps its value, needs no rule on which
connective binds tighter, since at every depth there is but one, and has the leaves of the tree, in their
order, as its conditions. -/
theorem Clause.lower_faithful (combine : Combine) (tree : Predicate) (branching : tree.Branching) :
    (∀ row, (Clause.lower combine tree).holds row = tree.holds row) ∧
      AllLayered combine (Clause.lower combine tree).items ∧
      conditionsOf (Clause.lower combine tree).items = tree.leaves ∧
      (conditionsOf (Clause.lower combine tree).items).length = tree.leafCount := by
  have hitems : (Clause.lower combine tree).items = tree.steps combine :=
    congrArg Clause.items (Clause.pushAll_of_solid .empty _ (tree.steps_solid combine branching).2)
  have hleaves : conditionsOf (Clause.lower combine tree).items = tree.leaves := by
    rw [hitems, tree.conditionsOf_steps combine]
  refine ⟨fun row => Clause.holds_lower row combine tree branching, ?_, hleaves, ?_⟩
  · rw [hitems]
    exact tree.steps_layered combine branching
  · rw [hleaves, Predicate.leafCount]

/-- A conjunction of a condition and a disjunction, which holds a conjunction in turn, in a row of
alternatives: every change of the connective makes a group. -/
theorem Clause.lower_faithful_nested :
    let young : Condition := ⟨"age", .less, .ofInt 18⟩
    let tree : Predicate :=
      .and [.leaf (.isNull "deleted"),
        .or [.leaf young, .or [.leaf (.isNotNull "guardian"), .and [.leaf young, .leaf young]]]]
    tree.Branching ∧
      (∀ row, (Clause.lower .or tree).holds row = tree.holds row) ∧
      AllLayered .or (Clause.lower .or tree).items ∧
      conditionsOf (Clause.lower .or tree).items = tree.leaves ∧
      (conditionsOf (Clause.lower .or tree).items).length = tree.leafCount := by
  intro young tree
  have branching : tree.Branching := by simp [tree, Predicate.Branching, AllBranching]
  exact ⟨branching, Clause.lower_faithful .or tree branching⟩

end SchemaQuery
