import Mathlib.Data.List.SplitBy
import SchemaQuery.Proofs.Filter.Lowering

/-!
# Runs of a clause

`and` binds tighter than `or`, so the items of a clause fall into runs: an item that is joined by `or` begins a new
run, and how the first item joins is of no account. A clause without items holds of every row, and any other clause
holds of a row when every item of one of its runs does. Deciding it goes through the items once and remembers two
things: whether an earlier run held, and whether the run so far does.
-/

namespace SchemaQuery

/-- Whether an item stays in the run of the item before it. -/
def Item.continues (_before item : Item) : Bool :=
  item.combine == .and

/-- The runs of items, as long as possible: each item behind the first that is joined by `or` begins a new one. -/
def runs (items : List Item) : List (List Item) :=
  items.splitBy Item.continues

/-- What it means that an item is satisfied by a row: its condition holds, or, of a group, there are no items or
every item of some run is satisfied. -/
inductive Item.Satisfied (row : Row) : Item → Prop where
  | condition {combine : Combine} {condition : Condition} (h : condition.holds row = true) :
    Satisfied row (.condition combine condition)
  | empty {combine : Combine} : Satisfied row (.group combine [])
  | run {combine : Combine} {items run : List Item} (hrun : run ∈ runs items)
      (h : ∀ item ∈ run, Satisfied row item) : Satisfied row (.group combine items)

/-- What it means that a clause is satisfied by a row: there are no items, or every item of some run is satisfied. -/
def Clause.Satisfied (row : Row) (c : Clause) : Prop :=
  c.items = [] ∨ ∃ run ∈ runs c.items, ∀ item ∈ run, item.Satisfied row

/-- An item that joins in another way. -/
def Item.joinedBy (combine : Combine) : Item → Item
  | .condition _ asked => .condition combine asked
  | .group _ items => .group combine items

variable (row : Row)

/-- A group is satisfied as the clause of its items is. -/
theorem Item.satisfied_group_iff {combine : Combine} {items : List Item} :
    (Item.group combine items).Satisfied row ↔ (⟨items⟩ : Clause).Satisfied row := by
  constructor
  · intro h
    cases h with
    | empty => exact Or.inl rfl
    | run hrun h => exact Or.inr ⟨_, hrun, h⟩
  · rintro (rfl | ⟨run, hrun, h⟩)
    · exact .empty
    · exact .run hrun h

/-- Items behind others are decided like the runs that they end: the two flags say whether every item holds of a run
that is complete, and of the run that is not. -/
theorem anyRunHolds_eq_any (rest : List Item) (last : Item) (run : List Item) (complete : List (List Item)) :
    anyRunHolds row rest (complete.any (List.all · (Item.holds row))) ((last :: run).all (Item.holds row)) false =
      (List.splitBy.loop Item.continues rest last run complete).any (List.all · (Item.holds row)) := by
  induction rest generalizing last run complete with
  | nil =>
    rw [anyRunHolds, List.splitBy.loop, List.any_reverse, List.any_cons, List.all_reverse, Bool.or_comm]
  | cons item rest ih =>
    rw [anyRunHolds, List.splitBy.loop]
    cases hcombine : item.combine with
    | and =>
      have hgoes : last.continues item = true := by rw [Item.continues, hcombine]; rfl
      rw [hgoes, ← ih item (last :: run) complete, List.all_cons (a := item), Bool.and_comm (item.holds row)]
      rfl
    | or =>
      have hends : last.continues item = false := by rw [Item.continues, hcombine]; rfl
      rw [hends, ← ih item [] ((last :: run).reverse :: complete), List.any_cons, List.all_reverse, Bool.or_comm]
      simp

/-- A clause is decided like its runs. -/
theorem Clause.holds_eq_any (c : Clause) :
    c.holds row = (c.items.isEmpty || (runs c.items).any (List.all · (Item.holds row))) := by
  obtain ⟨items⟩ := c
  cases items with
  | nil => rfl
  | cons item rest =>
    have hloop := anyRunHolds_eq_any row rest item [] []
    rw [List.all_cons, List.all_nil, Bool.and_true] at hloop
    exact (anyRunHolds_cons_first row item rest).trans hloop

/-- A clause whose items are decided as they are satisfied is decided as it is satisfied. -/
theorem Clause.holds_iff_of_items {c : Clause}
    (h : ∀ item ∈ c.items, item.holds row = true ↔ item.Satisfied row) : c.holds row = true ↔ c.Satisfied row := by
  have hrun : ∀ run ∈ runs c.items, (∀ item ∈ run, item.holds row = true) ↔ ∀ item ∈ run, item.Satisfied row := by
    intro run hrun
    refine forall₂_congr fun item hitem => h item ?_
    rw [← List.flatten_splitBy Item.continues c.items]
    exact List.mem_flatten.mpr ⟨run, hrun, hitem⟩
  rw [holds_eq_any, Bool.or_eq_true, List.isEmpty_iff, List.any_eq_true, Satisfied]
  refine or_congr Iff.rfl (exists_congr fun run => and_congr_right fun hmem => ?_)
  rw [List.all_eq_true, hrun run hmem]

mutual

/-- An item is decided as it is satisfied. -/
theorem Item.holds_iff_satisfied (item : Item) : item.holds row = true ↔ item.Satisfied row := by
  cases item with
  | condition combine condition =>
    refine ⟨.condition, fun h => ?_⟩
    cases h with
    | condition h => exact h
  | group combine items =>
    rw [Item.satisfied_group_iff]
    exact Clause.holds_iff_of_items row (c := ⟨items⟩) (forall_holds_iff_satisfied items)

/-- Items are decided as they are satisfied. -/
theorem forall_holds_iff_satisfied (items : List Item) :
    ∀ item ∈ items, item.holds row = true ↔ item.Satisfied row := by
  cases items with
  | nil => exact fun _ hitem => absurd hitem List.not_mem_nil
  | cons first rest =>
    intro item hitem
    rcases List.mem_cons.mp hitem with heq | hmem
    · rw [heq]
      exact first.holds_iff_satisfied
    · exact forall_holds_iff_satisfied rest item hmem

end

/-- A clause holds of a row exactly if it has no items or every item of one of its runs is satisfied, groups in the
same way; and how its first item joins is of no account. -/
theorem Clause.holds_iff_run (c : Clause) :
    (c.holds row = true ↔ c.items = [] ∨ ∃ run ∈ runs c.items, ∀ item ∈ run, item.Satisfied row) ∧
      ∀ first rest combine,
        (⟨first.joinedBy combine :: rest⟩ : Clause).holds row = (⟨first :: rest⟩ : Clause).holds row := by
  refine ⟨c.holds_iff_of_items row (forall_holds_iff_satisfied row c.items), fun first rest combine => ?_⟩
  have hfirst : (first.joinedBy combine).holds row = first.holds row := by
    cases first <;> simp only [Item.joinedBy, Item.holds]
  rw [holds, holds, anyRunHolds_cons_first, anyRunHolds_cons_first, hfirst]

end SchemaQuery
