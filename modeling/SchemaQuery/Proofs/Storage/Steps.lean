import SchemaQuery.Proofs.Basic
import SchemaQuery.Storage.Store

/-!
# Steps of a store

A store changes by making tables, by emptying them all, and by adding, changing and dropping rows. A step
that fails changes nothing. What a step does to a store is told table by table: it works on the table of one
name, or on every table, and a table that was not there is empty when it appears.
-/

namespace SchemaQuery

/-- What can be done to a store. -/
inductive StoreStep where
  | createTable (name : String)
  | truncate
  | insert (name : String) (row : Row)
  | patch (name : String) (clause : Clause) (patch : Row) (limit : Option Nat)
  | delete (name : String) (clause : Clause)

/-- Whether a step works on the table of a name. -/
def StoreStep.concerns (name : String) : StoreStep → Bool
  | .truncate => true
  | .createTable other | .insert other _ | .patch other .. | .delete other _ => other = name

/-- A table after a step that works on it. A step that fails changes nothing. -/
def Table.step (t : Table) : StoreStep → Table
  | .createTable _ => t
  | .truncate => .empty
  | .insert _ row => ((t.insert row).map Prod.snd).toOption.getD t
  | .patch _ clause patch limit => (t.patch clause patch limit).2
  | .delete _ clause => (t.delete clause).2

namespace Store

/-- The store after a step. A step that fails changes nothing. -/
def step (s : Store) : StoreStep → Store
  | .createTable name => s.createTable name
  | .truncate => s.truncate
  | .insert name row => ((s.insert name row).map Prod.snd).toOption.getD s
  | .patch name clause patch limit => ((s.patch name clause patch limit).map Prod.snd).toOption.getD s
  | .delete name clause => ((s.delete name clause).map Prod.snd).toOption.getD s

/-- The store after steps, taken in order. -/
def run (s : Store) (steps : List StoreStep) : Store :=
  steps.foldl step s

variable {s : Store} {name : String} {t : Table}

/-! ## Operations -/

/-- A table is found where the name has one. -/
theorem table_eq_ok_iff : s.table name = .ok t ↔ s.tables.get? name = some t := by
  unfold table
  cases s.tables.get? name <;> simp

/-- A new state of a table is seen under its name alone. -/
theorem get?_withTable (s : Store) (name : String) (t : Table) (other : String) :
    (s.withTable name t).tables.get? other = if name = other then some t else s.tables.get? other :=
  Dictionary.get?_insert s.tables name t other

/-- A store in which a table is put in the state it has is the store. -/
theorem withTable_of_get? (ht : s.tables.get? name = some t) : s.withTable name t = s := by
  obtain ⟨tables⟩ := s
  exact congrArg Store.mk (Dictionary.insert_of_get?_eq_some ht)

/-- Adding a row to a store is adding it to the table. -/
theorem insert_of_table (ht : s.tables.get? name = some t) (row : Row) :
    s.insert name row = (t.insert row).map fun added => (added.1, s.withTable name added.2) := by
  have hopen : s.insert name row =
      t.insert row >>= fun added => pure (added.1, s.withTable name added.2) := by
    simp only [insert, table_eq_ok_iff.mpr ht]
    rfl
  rw [hopen]
  cases t.insert row <;> rfl

/-- Changing rows of a store is changing them in the table. -/
theorem patch_of_table (ht : s.tables.get? name = some t) (clause : Clause) (values : Row)
    (limit : Option Nat) : s.patch name clause values limit =
      .ok ((t.patch clause values limit).1, s.withTable name (t.patch clause values limit).2) := by
  simp only [patch, table_eq_ok_iff.mpr ht]
  rfl

/-- Dropping rows of a store is dropping them from the table. -/
theorem delete_of_table (ht : s.tables.get? name = some t) (clause : Clause) :
    s.delete name clause = .ok ((t.delete clause).1, s.withTable name (t.delete clause).2) := by
  simp only [delete, table_eq_ok_iff.mpr ht]
  rfl

/-- Without the table nothing can be added, changed or dropped. -/
theorem step_of_no_table (hnone : s.tables.get? name = none) (row : Row) (clause : Clause) (values : Row)
    (limit : Option Nat) : s.step (.insert name row) = s ∧
      s.step (.patch name clause values limit) = s ∧ s.step (.delete name clause) = s := by
  have htable : s.table name = .error (.unknownTable name) := by simp [table, hnone]
  simp only [step, insert, patch, delete, htable]
  exact ⟨rfl, rfl, rfl⟩

/-! ## Steps -/

/-- A store that has one table in a new state, table by table. -/
theorem get?_withTable_map {f : Table → Table} (ht : s.tables.get? name = some t) (other : String) :
    (s.withTable name (f t)).tables.get? other =
      if name = other then (s.tables.get? other).map f else s.tables.get? other := by
  rw [get?_withTable]
  by_cases hname : name = other
  · rw [if_pos hname, if_pos hname, ← hname, ht]
    rfl
  · rw [if_neg hname, if_neg hname]

/-- A store that lacks a table, seen as one in which the table is changed. -/
theorem get?_of_no_table {f : Table → Table} (hnone : s.tables.get? name = none) (other : String) :
    s.tables.get? other =
      if name = other then (s.tables.get? other).map f else s.tables.get? other := by
  by_cases hname : name = other
  · rw [if_pos hname, ← hname, hnone]
    rfl
  · rw [if_neg hname]

/-- What a step does, table by table. A table that it makes is empty. -/
theorem get?_step (s : Store) (action : StoreStep) (name : String) :
    (s.step action).tables.get? name =
      if action.concerns name then
        match action with
        | .createTable _ => some ((s.tables.get? name).getD .empty)
        | action => (s.tables.get? name).map (·.step action)
      else s.tables.get? name := by
  cases action with
  | createTable other =>
    simp only [step, createTable, StoreStep.concerns, decide_eq_true_eq]
    cases hother : s.tables.get? other with
    | none =>
      rw [if_neg (by simp [Dictionary.contains, hother]), Dictionary.get?_insert]
      by_cases hname : other = name
      · rw [if_pos hname, if_pos hname, ← hname, hother]
        rfl
      · rw [if_neg hname, if_neg hname]
    | some t =>
      rw [if_pos (by simp [Dictionary.contains, hother])]
      by_cases hname : other = name
      · rw [if_pos hname, ← hname, hother]
        rfl
      · rw [if_neg hname]
  | truncate => exact Dictionary.get?_map s.tables _ name
  | insert other row =>
    simp only [StoreStep.concerns, decide_eq_true_eq]
    cases hother : s.tables.get? other with
    | none =>
      rw [(step_of_no_table hother row .empty [] none).1]
      exact get?_of_no_table hother name
    | some t =>
      cases hinsert : t.insert row with
      | error fault =>
        simp only [step, insert_of_table hother, hinsert]
        by_cases hname : other = name
        · rw [if_pos hname, ← hname, hother, Option.map_some, Table.step, hinsert]
          exact hother
        · rw [if_neg hname]
          rfl
      | ok added =>
        have hstep : t.step (.insert other row) = added.2 := by
          rw [Table.step, hinsert]
          rfl
        simp only [step, insert_of_table hother, hinsert]
        rw [← get?_withTable_map (f := (·.step (.insert other row))) hother name, hstep]
        rfl
  | patch other clause values limit =>
    simp only [StoreStep.concerns, decide_eq_true_eq]
    cases hother : s.tables.get? other with
    | none =>
      rw [(step_of_no_table hother [] clause values limit).2.1]
      exact get?_of_no_table hother name
    | some t =>
      simp only [step, patch_of_table hother]
      exact get?_withTable_map (f := (·.step (.patch other clause values limit))) hother name
  | delete other clause =>
    simp only [StoreStep.concerns, decide_eq_true_eq]
    cases hother : s.tables.get? other with
    | none =>
      rw [(step_of_no_table hother [] clause [] none).2.2]
      exact get?_of_no_table hother name
    | some t =>
      simp only [step, delete_of_table hother]
      exact get?_withTable_map (f := (·.step (.delete other clause))) hother name

/-- A table that is there stays there, as the step makes it if the step works on it. -/
theorem get?_step_of_some (ht : s.tables.get? name = some t) (action : StoreStep) :
    (s.step action).tables.get? name =
      some (if action.concerns name then t.step action else t) := by
  rw [get?_step, ht]
  split
  · cases action <;> rfl
  · rfl

/-- A table that appears in a step is empty. -/
theorem eq_empty_of_step {action : StoreStep} (hnone : s.tables.get? name = none)
    (ht : (s.step action).tables.get? name = some t) : t = .empty := by
  rw [get?_step, hnone] at ht
  split at ht
  · cases action with
    | createTable other => exact (Option.some.inj ht).symm
    | _ => cases ht
  · cases ht

/-- What holds of the empty table of every name and of every table after the step works on it holds of every
table. -/
theorem forall_tables_step {P : String → Table → Prop} {action : StoreStep} (hempty : ∀ name, P name .empty)
    (hs : ∀ name, ∀ t ∈ s.tables.get? name, P name t)
    (hstep : ∀ name, ∀ t ∈ s.tables.get? name, action.concerns name → P name (t.step action)) :
    ∀ name, ∀ t ∈ (s.step action).tables.get? name, P name t := by
  intro name after hafter
  cases ht : s.tables.get? name with
  | none =>
    rw [eq_empty_of_step ht hafter]
    exact hempty name
  | some t =>
    obtain rfl := Option.some.inj ((get?_step_of_some ht action).symm.trans hafter)
    split
    · next hconcerns => exact hstep name t ht hconcerns
    · exact hs name t ht

/-! ## Runs -/

/-- A new store has empty tables. -/
theorem eq_empty_of_ofTables {names : List String} (ht : (ofTables names).tables.get? name = some t) :
    t = .empty := by
  obtain ⟨other, -, hother⟩ := List.mem_map.mp (Dictionary.mem_of_get?_ofList ht)
  exact (Prod.mk.inj hother).2.symm

/-- What holds of an empty table and is kept by every step on a table holds of every table after a run. -/
theorem forall_tables_run {P : Table → Prop} (hempty : P .empty) (hstep : ∀ t, P t → ∀ action, P (t.step action))
    (names : List String) (steps : List StoreStep) :
    ∀ name, ∀ t ∈ ((ofTables names).run steps).tables.get? name, P t := by
  have hnew : ∀ name, ∀ t ∈ (ofTables names).tables.get? name, P t := fun name t ht =>
    eq_empty_of_ofTables ht ▸ hempty
  generalize ofTables names = s at hnew
  induction steps generalizing s with
  | nil => exact hnew
  | cons first rest ih =>
    refine ih (s.step first) (forall_tables_step (fun _ => hempty) hnew ?_)
    exact fun name t ht _ => hstep t (hnew name t ht) first

/-- A run is its first part and then the rest. -/
theorem run_append (s : Store) (early late : List StoreStep) :
    s.run (early ++ late) = (s.run early).run late :=
  List.foldl_append

end Store

end SchemaQuery
