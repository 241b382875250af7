import Mathlib.Data.List.Induction
import SchemaQuery.Proofs.Storage.Steps

/-!
# Which rows a clause selects

Counting, selecting, paging, changing and dropping rows are written one by one, and all of them select the same
rows: those that the clause holds of before the statement runs. A change with a limit reaches the first of them
in the order of the table and leaves everything else as it is. A row that takes new values twice has what it has
after the first time, so that a change of all rows made again changes nothing, even where it makes rows fall out
of its own clause.
-/

namespace SchemaQuery

/-! ## New values -/

namespace Members

/-- Giving a name a value forgets the value before. -/
theorem insert_insert_self (m : Members) (name : String) (old value : Json) :
    (m.insert name old).insert name value = m.insert name value := by
  induction m with
  | nil => simp [insert]
  | cons entry rest ih =>
    by_cases hname : entry.1 = name
    · simp [insert, hname]
    · simp [insert, hname, ih]

/-- A name that is there may get its value before or after another name does. -/
theorem insert_comm_of_mem {m : Members} {name other : String} (hmem : name ∈ m.names) (hne : other ≠ name)
    (value more : Json) :
    (m.insert other more).insert name value = (m.insert name value).insert other more := by
  induction m with
  | nil => cases hmem
  | cons entry rest ih =>
    obtain ⟨first, old⟩ := entry
    by_cases hname : first = name
    · subst hname
      simp [insert, Ne.symm hne]
    · have hrest : name ∈ names rest := by
        simpa [names, Ne.symm hname] using hmem
      by_cases hother : first = other
      · subst hother
        simp [insert, hname]
      · simp [insert, hname, hother, ih hrest]

/-- Names that are there get their values before or after another name does, if that one gets the same in the
end. -/
theorem extend_insert_insert {m more : Members} (h : ∀ entry ∈ more, entry.1 ∈ m.names) (name : String)
    (old value : Json) :
    ((m.insert name old).extend more).insert name value = (m.extend more).insert name value := by
  induction more generalizing m old with
  | nil => exact m.insert_insert_self name old value
  | cons entry rest ih =>
    rw [List.forall_mem_cons] at h
    have hrest : ∀ later ∈ rest, later.1 ∈ (m.insert entry.1 entry.2).names := fun later hlater =>
      mem_names_insert.mpr (Or.inr (h.2 later hlater))
    change (((m.insert name old).insert entry.1 entry.2).extend rest).insert name value =
      ((m.insert entry.1 entry.2).extend rest).insert name value
    by_cases hname : entry.1 = name
    · rw [← hname, insert_insert_self]
    · rw [insert_comm_of_mem h.1 (Ne.symm hname), ih hrest]

/-- A row that is extended twice is as it is after the first time. -/
theorem extend_extend (m more : Members) : (m.extend more).extend more = m.extend more := by
  induction more using List.reverseRecOn with
  | nil => rfl
  | append_singleton early last ih =>
    have hextend (start : Members) :
        start.extend (early ++ [last]) = (start.extend early).insert last.1 last.2 := List.foldl_append
    have hnames : ∀ entry ∈ early, entry.1 ∈ (m.extend early).names := fun entry hentry =>
      mem_names_extend.mpr (Or.inr (List.mem_map_of_mem hentry))
    rw [hextend, hextend, extend_insert_insert hnames, ih]

end Members

namespace Table

/-- A row takes new values twice as once. -/
theorem overlay_overlay (row patch : Row) : overlay (overlay row patch) patch = overlay row patch :=
  Members.extend_extend row _

variable {t : Table}

/-! ## Changed rows -/

/-- A row changes when the clause holds of it and the limit is not used up by the rows before it. -/
theorem getElem?_patchRows (clause : Clause) (patch : Row) (rows : List Row) (limit : Option Nat) (i : Nat) :
    (patchRows clause patch rows limit).1[i]? = rows[i]?.map fun row =>
      if clause.holds row ∧ ∀ n ∈ limit, (rows.take i).countP clause.holds < n then overlay row patch
      else row := by
  induction rows generalizing limit i with
  | nil => simp [patchRows]
  | cons first rest ih =>
    rw [patchRows]
    by_cases hlimit : limit = some 0
    · simp [hlimit]
    · rw [if_neg hlimit]
      have hroom : ∀ n ∈ limit, 0 < n := fun n hn => Nat.pos_of_ne_zero fun h => hlimit (h ▸ hn)
      by_cases hfirst : clause.holds first = true
      · rw [if_pos hfirst]
        cases i with
        | zero =>
          have hchanged : clause.holds first = true ∧
              ∀ n ∈ limit, ((first :: rest).take 0).countP clause.holds < n := ⟨hfirst, hroom⟩
          rw [List.getElem?_cons_zero, List.getElem?_cons_zero, Option.map_some, if_pos hchanged]
        | succ i =>
          have hless (count : Nat) : (∀ n ∈ limit.map (· - 1), count < n) ↔ ∀ n ∈ limit, count + 1 < n := by
            cases limit with
            | none => simp
            | some n => simpa using Nat.lt_sub_iff_add_lt
          simp only [List.getElem?_cons_succ, ih, hless, List.take_succ_cons, List.countP_cons_of_pos hfirst]
      · rw [if_neg hfirst]
        cases i with
        | zero => simp [hfirst]
        | succ i => simp [ih, hfirst]

/-- The first rows that the clause holds of change, up to the limit, and no others do. -/
theorem patchRows_fst (clause : Clause) (patch : Row) (rows : List Row) (limit : Option Nat) :
    (patchRows clause patch rows limit).1 = rows.mapIdx fun i row =>
      if clause.holds row ∧ ∀ n ∈ limit, (rows.take i).countP clause.holds < n then overlay row patch
      else row :=
  List.ext_getElem? fun i => by rw [getElem?_patchRows, List.getElem?_mapIdx]

/-- As many rows change as the clause holds of, up to the limit. -/
theorem patchRows_snd (clause : Clause) (patch : Row) (rows : List Row) (limit : Option Nat) :
    (patchRows clause patch rows limit).2 =
      match limit with
      | none => rows.countP clause.holds
      | some n => min n (rows.countP clause.holds) := by
  induction rows generalizing limit with
  | nil => cases limit <;> simp [patchRows]
  | cons first rest ih =>
    rw [patchRows]
    by_cases hlimit : limit = some 0
    · simp [hlimit]
    · rw [if_neg hlimit]
      by_cases hfirst : clause.holds first = true
      · rw [if_pos hfirst]
        simp only [ih, List.countP_cons_of_pos hfirst]
        cases limit with
        | none => rfl
        | some n =>
          have hpos : n ≠ 0 := fun h => hlimit (h ▸ rfl)
          simp only [Option.map_some]
          omega
      · rw [if_neg hfirst]
        simp only [ih, List.countP_cons_of_neg hfirst]

/-- All rows that the clause holds of change when there is no limit. -/
theorem patchRows_none_fst (clause : Clause) (patch : Row) (rows : List Row) :
    (patchRows clause patch rows none).1 = rows.map fun row =>
      if clause.holds row then overlay row patch else row := by
  refine List.ext_getElem? fun i => ?_
  rw [getElem?_patchRows, List.getElem?_map]
  simp

/-- A change of all rows that is made again changes nothing. -/
theorem patch_patch (t : Table) (clause : Clause) (values : Row) :
    ((t.patch clause values none).2.patch clause values none).2 = (t.patch clause values none).2 := by
  have hrow (row : Row) :
      (fun row => if clause.holds row then overlay row values else row)
          (if clause.holds row then overlay row values else row) =
        if clause.holds row then overlay row values else row := by
    by_cases h : clause.holds row = true
    · simp [h, overlay_overlay]
    · simp [h]
  simp only [patch, patchRows_none_fst, List.map_map, Function.comp_def, hrow]

/-- As many rows are read without bounds as the clause holds of, in whatever order. -/
theorem length_matching (t : Table) (clause : Clause) (order : List OrderBy) :
    (t.matching clause order).length = t.rows.countP clause.holds := by
  rw [List.countP_eq_length_filter, matching, sortRows]
  split
  · rfl
  · exact List.length_mergeSort _

/-- No row is counted when the rows that the clause holds of are gone. -/
theorem count_delete (t : Table) (clause : Clause) : (t.delete clause).2.count clause = 0 := by
  rw [delete, count, List.filter_filter]
  simp

end Table

namespace Store

/-- Whether a store is another but for the rows of one table. -/
def HasRows (s : Store) (name : String) (t : Table) (rows : List Row) (after : Store) : Prop :=
  ∀ other, after.tables.get? other = if name = other then some { t with rows } else s.tables.get? other

/-- All statements on a table select the rows that a clause holds of: as many are counted, read, paged, changed
and dropped. A change reaches the first of them in the order of the table up to the limit, and no other row, and
the change of all of them leaves nothing to change again. Dropping them keeps the others in order and leaves
none to count. -/
structure Agrees (s : Store) (name : String) (t : Table) (clause : Clause) : Prop where
  count : s.count name clause = .ok (t.rows.countP clause.holds)
  select : ∀ columns order, ∃ rows,
    s.select ⟨name, clause, columns, order, none, none⟩ = .ok rows ∧
      rows.length = t.rows.countP clause.holds
  range : ∀ columns order limit offset start stop, ∃ page,
    s.selectRange ⟨name, clause, columns, order, limit, offset⟩ start stop = .ok page ∧
      page.total = t.rows.countP clause.holds
  patch : ∀ values limit, ∃ after,
    s.patch name clause values limit =
        .ok
          (match limit with
            | none => t.rows.countP clause.holds
            | some n => min n (t.rows.countP clause.holds),
          after) ∧
      s.HasRows name t
        (t.rows.mapIdx fun i row =>
          if clause.holds row ∧ ∀ n ∈ limit, (t.rows.take i).countP clause.holds < n then
            Table.overlay row values
          else row)
        after
  patchAgain : ∀ values, ∃ changed again after,
    s.patch name clause values none = .ok (changed, after) ∧
      after.patch name clause values none = .ok (again, after)
  delete : ∃ after,
    s.delete name clause = .ok (t.rows.countP clause.holds, after) ∧
      s.HasRows name t (t.rows.filter fun row => !clause.holds row) after ∧ after.count name clause = .ok 0

variable {s : Store} {name : String} {t : Table}

/-- A table that is put into a store has its rows there. -/
theorem hasRows_withTable (s : Store) (name : String) (t : Table) (rows : List Row) :
    s.HasRows name t rows (s.withTable name { t with rows }) :=
  get?_withTable s name { t with rows }

/-- A table that has been put into a store is found there. -/
theorem table_withTable (s : Store) (name : String) (t : Table) : (s.withTable name t).table name = .ok t :=
  table_eq_ok_iff.mpr (by rw [get?_withTable, if_pos rfl])

/-- Putting a table into a store again forgets what was put there before. -/
theorem withTable_withTable (s : Store) (name : String) (t later : Table) :
    (s.withTable name t).withTable name later = s.withTable name later := by
  refine congrArg Store.mk (Dictionary.ext_get? fun other => ?_)
  simp only [withTable, Dictionary.get?_insert]
  split <;> rfl

/-- Every statement on a table that is there selects the rows that the clause holds of before it runs. -/
theorem agrees_of_table (ht : s.tables.get? name = some t) (clause : Clause) : s.Agrees name t clause := by
  have htable : s.table name = .ok t := table_eq_ok_iff.mpr ht
  have hcount : t.count clause = t.rows.countP clause.holds := List.countP_eq_length_filter.symm
  refine ⟨?_, fun columns order => ?_, fun columns order limit offset start stop => ?_, fun values limit => ?_,
    fun values => ?_, ?_⟩
  · rw [count, htable, ← hcount]
    rfl
  · refine ⟨_, by rw [select, htable]; rfl, ?_⟩
    rw [← t.length_matching clause order]
    simp [Table.select]
  · exact ⟨_, by rw [selectRange, htable]; rfl, t.length_matching clause order⟩
  · refine ⟨_, ?_, s.hasRows_withTable name t _⟩
    rw [patch_of_table ht, Table.patch, Table.patchRows_snd, Table.patchRows_fst]
  · obtain ⟨after, hafter⟩ : ∃ after, after = (t.patch clause values none).2 := ⟨_, rfl⟩
    have hagain : (s.withTable name after).patch name clause values none =
        .ok ((after.patch clause values none).1, s.withTable name after) := by
      rw [patch_of_table (table_eq_ok_iff.mp (s.table_withTable name after)), withTable_withTable, hafter,
        Table.patch_patch]
    exact ⟨_, _, _, hafter ▸ patch_of_table ht clause values none, hagain⟩
  · refine ⟨_, ?_, s.hasRows_withTable name t _, ?_⟩
    · rw [delete_of_table ht, Table.delete, hcount]
    · rw [count, table_withTable]
      exact congrArg Except.ok (t.count_delete clause)

/-- Two of three people are in Rome. Moving one of them changes the first, and the rows that are dropped are those
of both. -/
theorem agrees_of_table_cities :
    let lives (id : Nat) (city : String) : Row := [(primaryKey, .ofNat id), ("city", .str city)]
    let t : Table := ⟨[lives 1 "Rome", lives 2 "Oslo", lives 3 "Rome"], 7⟩
    let s := (Store.ofTables ["place"]).withTable "person" t
    let rome := Clause.empty.andWhere (.equal "city" (.str "Rome"))
    s.tables.get? "person" = some t ∧ s.count "person" rome = .ok 2 ∧
      (∃ after, s.patch "person" rome [("city", .str "Bonn")] (some 1) = .ok (1, after) ∧
        after.tables.get? "person" = some ⟨[lives 1 "Bonn", lives 2 "Oslo", lives 3 "Rome"], 7⟩) ∧
      ∃ after, s.delete "person" rome = .ok (2, after) ∧
        after.tables.get? "person" = some ⟨[lives 2 "Oslo"], 7⟩ ∧ after.count "person" rome = .ok 0 := by
  intro lives t s rome
  have ht : s.tables.get? "person" = some t := table_eq_ok_iff.mp (table_withTable _ "person" t)
  have agrees := agrees_of_table ht rome
  obtain ⟨patched, hpatch, hpatched⟩ := agrees.patch [("city", .str "Bonn")] (some 1)
  obtain ⟨dropped, hdelete, hdropped, hnone⟩ := agrees.delete
  exact ⟨ht, agrees.count, ⟨patched, hpatch, (hpatched "person").trans rfl⟩,
    ⟨dropped, hdelete, (hdropped "person").trans rfl, hnone⟩⟩

end Store

end SchemaQuery
