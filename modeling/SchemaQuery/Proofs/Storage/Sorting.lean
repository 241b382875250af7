import SchemaQuery.Proofs.Storage.Order

/-!
# Selections in order

Rows are compared column by column: the first column that tells two of them apart decides, and null comes before
every other value. Values that cannot be compared count as equal, so that a column of numbers and texts gives no
order. A column of one kind does, in either direction, and then the columns together do. Sorting by them keeps
every row, puts no row behind one that comes after it, and leaves rows that no column tells apart as they were; a
selection is a piece of the sorted rows.
-/

namespace SchemaQuery

open Std

/-! ## What an order means -/

namespace Json

/-- Whether values can be compared with each other: apart from null all are numbers or booleans, or all texts. -/
def OfOneKind (values : List Json) : Prop :=
  (∀ v ∈ values, v.isNull = true ∨ v.asNumber?.isSome = true) ∨
    ∀ v ∈ values, v.isNull = true ∨ v.asString?.isSome = true

/-- Whether a value comes strictly before another: null before every other value, the others as they compare. -/
def Precedes (a b : Json) : Prop :=
  a.isNull = true ∧ b.isNull = false ∨ a.compareValues? b = some .lt

end Json

/-- Whether a row comes strictly before another by one column. -/
def OrderBy.Precedes (entry : OrderBy) (a b : Row) : Prop :=
  match entry.direction with
  | .asc => (a.getD entry.column).Precedes (b.getD entry.column)
  | .desc => (b.getD entry.column).Precedes (a.getD entry.column)

namespace Table

/-- Whether no column of an order tells two rows apart. -/
def Tied (order : List OrderBy) (a b : Row) : Prop :=
  ∀ entry ∈ order, ¬entry.Precedes a b ∧ ¬entry.Precedes b a

/-- Whether the first column that tells two rows apart puts one strictly before the other. -/
def Precedes (order : List OrderBy) (a b : Row) : Prop :=
  ∃ front entry back, order = front ++ entry :: back ∧ Tied front a b ∧ entry.Precedes a b

/-- Whether rows are put in an order: every row is kept, none stands behind one that comes after it, and rows that
no column tells apart stay as they were. -/
structure Sorts (order : List OrderBy) (rows sorted : List Row) : Prop where
  perm : sorted.Perm rows
  ordered : sorted.Pairwise fun a b => ¬Precedes order b a
  stable : ∀ tied : List Row, tied.Sublist rows → tied.Pairwise (Tied order) → tied.Sublist sorted

/-- Whether an order is fit for sorting rows: it says which of two rows comes first, of two rows one may stand
before the other, whichever is asked first, and so may rows that have a third between them. -/
structure Orders (order : List OrderBy) (rows : List Row) : Prop where
  less : ∀ a b, compareRows order a b = .lt ↔ Precedes order a b
  equal : ∀ a b, compareRows order a b = .eq ↔ Tied order a b
  swap : ∀ a b, compareRows order b a = (compareRows order a b).swap
  total : ∀ a b, compareRows order a b ≠ .gt ∨ compareRows order b a ≠ .gt
  trans : ∀ a ∈ rows, ∀ b ∈ rows, ∀ c ∈ rows, compareRows order a b ≠ .gt → compareRows order b c ≠ .gt →
    compareRows order a c ≠ .gt

/-! ## Columns -/

section Columns

variable {κ : Type} [Ord κ]

/-- Values that are null or have a place are ordered by their places, null first. -/
theorem compareColumn_eq_compareOn (place : Json → Option κ) (hnull : place .null = none)
    (hplace : ∀ {a b : Json} {x y : κ}, place a = some x → place b = some y →
      compareColumn a b = compare x y) {a b : Json} (ha : a.isNull = true ∨ (place a).isSome = true)
    (hb : b.isNull = true ∨ (place b).isSome = true) : compareColumn a b = compareOn place a b := by
  have hother {v : Json} {x : κ} (h : place v = some x) : v.isNull = false := by
    cases v <;> first | rfl | simp [hnull] at h
  simp only [Option.isSome_iff_exists, Json.isNull_iff] at ha hb
  rcases ha with rfl | ⟨x, hx⟩ <;> rcases hb with rfl | ⟨y, hy⟩
  · rw [compareOn, hnull]
    rfl
  · rw [compareColumn, hother hy, compareOn, hnull, hy]
    rfl
  · rw [compareColumn, hother hx, compareOn, hnull, hx]
    rfl
  · rw [hplace hx hy, compareOn, hx, hy]
    rfl

/-- Values that are null or have a place are in order. -/
theorem transCmp_of_places [TransOrd κ] (place : Json → Option κ) (hnull : place .null = none)
    (hplace : ∀ {a b : Json} {x y : κ}, place a = some x → place b = some y →
      compareColumn a b = compare x y) {α : Type} {value : α → Json}
    (h : ∀ x, (value x).isNull = true ∨ (place (value x)).isSome = true) :
    TransCmp fun a b => compareColumn (value a) (value b) := by
  have hplaces : (fun a b => compareColumn (value a) (value b)) = compareOn fun x => place (value x) := by
    funext a b
    exact compareColumn_eq_compareOn place hnull hplace (h a) (h b)
  rw [hplaces]
  infer_instance

/-- Rows are in order by a column of one kind: numbers by value, texts by their characters. -/
theorem transCmp_compareColumn {column : String} {rows : List Row}
    (h : Json.OfOneKind (rows.map (·.getD column))) :
    TransCmp fun a b : { row // row ∈ rows } => compareColumn (a.1.getD column) (b.1.getD column) := by
  simp only [Json.OfOneKind, List.forall_mem_map] at h
  rcases h with hnumbers | htexts
  · refine transCmp_of_places (fun v => v.asNumber?.map Binary64.key) rfl (fun {a b x y} ha hb => ?_)
      fun a => by simpa using hnumbers a a.2
    obtain ⟨number, hnumber, rfl⟩ := Option.map_eq_some_iff.mp ha
    obtain ⟨other, hother, rfl⟩ := Option.map_eq_some_iff.mp hb
    exact compareColumn_of_numbers hnumber hother
  · refine transCmp_of_places Json.asString? rfl (fun {a b s t} ha hb => ?_) fun a => htexts a a.2
    cases a <;> cases ha
    cases b <;> cases hb
    rfl

end Columns

/-- A value is less in a column when it comes strictly before the other. -/
theorem compareColumn_eq_lt_iff {a b : Json} : compareColumn a b = .lt ↔ a.Precedes b := by
  rw [Json.Precedes]
  cases ha : a.isNull with
  | true =>
    rw [Json.compareValues?_of_isNull (Or.inl ha)]
    cases hb : b.isNull <;> simp [compareColumn, ha, hb]
  | false =>
    cases hb : b.isNull with
    | true => simp [compareColumn, ha, hb, Json.compareValues?_of_isNull (Or.inr hb)]
    | false => cases hab : a.compareValues? b <;> simp [compareColumn, ha, hb, hab]

/-- Turning two values around turns their order in a column around. -/
theorem compareColumn_swap (a b : Json) : compareColumn b a = (compareColumn a b).swap := by
  cases ha : a.isNull <;> cases hb : b.isNull <;> simp only [compareColumn, ha, hb]
  · rw [Json.compareValues?_swap a b]
    cases a.compareValues? b <;> rfl
  all_goals rfl

/-! ## Rows -/

/-- The order of two rows by one column. -/
def compareEntry (entry : OrderBy) (a b : Row) : Ordering :=
  match entry.direction with
  | .asc => compareColumn (a.getD entry.column) (b.getD entry.column)
  | .desc => (compareColumn (a.getD entry.column) (b.getD entry.column)).swap

/-- A row is less by one column when it comes strictly before the other by it. -/
theorem compareEntry_eq_lt_iff {entry : OrderBy} {a b : Row} :
    compareEntry entry a b = .lt ↔ entry.Precedes a b := by
  obtain ⟨column, direction⟩ := entry
  cases direction with
  | asc => exact compareColumn_eq_lt_iff
  | desc =>
    rw [compareEntry, ← compareColumn_swap]
    exact compareColumn_eq_lt_iff

/-- Turning two rows around turns their order by one column around. -/
theorem compareEntry_swap (entry : OrderBy) (a b : Row) :
    compareEntry entry b a = (compareEntry entry a b).swap := by
  obtain ⟨column, direction⟩ := entry
  cases direction with
  | asc => exact compareColumn_swap _ _
  | desc => exact congrArg Ordering.swap (compareColumn_swap _ _)

/-- Two rows are equal by one column when neither comes before the other by it. -/
theorem compareEntry_eq_eq_iff {entry : OrderBy} {a b : Row} :
    compareEntry entry a b = .eq ↔ ¬entry.Precedes a b ∧ ¬entry.Precedes b a := by
  rw [← compareEntry_eq_lt_iff, ← compareEntry_eq_lt_iff, compareEntry_swap entry a b]
  cases compareEntry entry a b <;> decide

/-- The first column decides, and the others if it does not. -/
theorem compareRows_cons (entry : OrderBy) (rest : List OrderBy) (a b : Row) :
    compareRows (entry :: rest) a b = (compareEntry entry a b).then (compareRows rest a b) := rfl

/-- Turning two rows around turns their order around. -/
theorem compareRows_swap (order : List OrderBy) (a b : Row) :
    compareRows order b a = (compareRows order a b).swap := by
  induction order with
  | nil => rfl
  | cons entry rest ih =>
    rw [compareRows_cons, compareRows_cons, Ordering.swap_then, compareEntry_swap entry a b, ih]

/-- Rows are equal when no column tells them apart. -/
theorem compareRows_eq_eq_iff {order : List OrderBy} {a b : Row} :
    compareRows order a b = .eq ↔ Tied order a b := by
  induction order with
  | nil => simp [compareRows, Tied]
  | cons entry rest ih =>
    rw [compareRows_cons, Ordering.then_eq_eq, ih, compareEntry_eq_eq_iff]
    simp [Tied]

/-- A row is less when the first column that tells the rows apart puts it first. -/
theorem compareRows_eq_lt_iff {order : List OrderBy} {a b : Row} :
    compareRows order a b = .lt ↔ Precedes order a b := by
  induction order with
  | nil => simp [compareRows, Precedes]
  | cons entry rest ih =>
    rw [compareRows_cons, Ordering.then_eq_lt, ih, compareEntry_eq_lt_iff, compareEntry_eq_eq_iff]
    constructor
    · rintro (hfirst | ⟨htied, front, decisive, back, rfl, hfront, hdecisive⟩)
      · exact ⟨[], entry, rest, rfl, fun _ h => absurd h List.not_mem_nil, hfirst⟩
      · exact ⟨entry :: front, decisive, back, rfl, List.forall_mem_cons.mpr ⟨htied, hfront⟩, hdecisive⟩
    · rintro ⟨front, decisive, back, hsplit, hfront, hdecisive⟩
      cases front with
      | nil =>
        obtain ⟨rfl, -⟩ := List.cons.inj hsplit
        exact Or.inl hdecisive
      | cons other front =>
        obtain ⟨rfl, rfl⟩ := List.cons.inj hsplit
        obtain ⟨htied, hothers⟩ := List.forall_mem_cons.mp hfront
        exact Or.inr ⟨htied, front, decisive, back, rfl, hothers, hdecisive⟩

/-- Rows are in order by a column of one kind, in either direction. -/
theorem transCmp_compareEntry {entry : OrderBy} {rows : List Row}
    (h : Json.OfOneKind (rows.map (·.getD entry.column))) :
    TransCmp fun a b : { row // row ∈ rows } => compareEntry entry a b := by
  have hcolumn := transCmp_compareColumn h
  obtain ⟨column, direction⟩ := entry
  cases direction with
  | asc => exact hcolumn
  | desc =>
    have hswap : (fun a b : { row // row ∈ rows } => compareEntry ⟨column, .desc⟩ a b) =
        fun a b => compareColumn (b.1.getD column) (a.1.getD column) := by
      funext a b
      exact (compareColumn_swap _ _).symm
    rw [hswap]
    exact hcolumn.opposite

/-- Rows are in order by columns of one kind each, taken one after another. -/
theorem transCmp_compareRows {order : List OrderBy} {rows : List Row}
    (h : ∀ entry ∈ order, Json.OfOneKind (rows.map (·.getD entry.column))) :
    TransCmp fun a b : { row // row ∈ rows } => compareRows order a b := by
  induction order with
  | nil => exact { eq_swap := rfl, isLE_trans := fun _ _ => rfl }
  | cons entry rest ih =>
    obtain ⟨hentry, hrest⟩ := List.forall_mem_cons.mp h
    have hfirst := transCmp_compareEntry hentry
    have hothers := ih hrest
    have hlex : (fun a b : { row // row ∈ rows } => compareRows (entry :: rest) a b) =
        compareLex (fun a b : { row // row ∈ rows } => compareEntry entry a b)
          fun a b : { row // row ∈ rows } => compareRows rest a b := rfl
    rw [hlex]
    infer_instance

/-- Columns of one kind each are fit for sorting. -/
theorem orders_of_ofOneKind {order : List OrderBy} {rows : List Row}
    (h : ∀ entry ∈ order, Json.OfOneKind (rows.map (·.getD entry.column))) : Orders order rows where
  less _ _ := compareRows_eq_lt_iff
  equal _ _ := compareRows_eq_eq_iff
  swap := compareRows_swap order
  total a b := by
    rw [compareRows_swap order a b]
    cases compareRows order a b <;> decide
  trans a ha b hb c hc hab hbc := by
    have hcmp := transCmp_compareRows h
    exact Ordering.isLE_iff_ne_gt.mp (hcmp.isLE_trans (a := ⟨a, ha⟩) (b := ⟨b, hb⟩) (c := ⟨c, hc⟩)
      (Ordering.isLE_iff_ne_gt.mpr hab) (Ordering.isLE_iff_ne_gt.mpr hbc))

/-! ## Sorting -/

section Sorting

variable {α : Type} {cmp : α → α → Ordering} {l : List α}

/-- Sorting a list is sorting its members. -/
theorem mergeSort_eq_map_attach (le : α → α → Bool) (l : List α) :
    l.mergeSort le = (l.attach.mergeSort fun a b => le a b).map Subtype.val := by
  have hmap := List.map_mergeSort (f := Subtype.val) (l := l.attach)
    (r := fun a b : { x // x ∈ l } => le a b) (s := le) fun _ _ _ _ => rfl
  rw [hmap, List.attach_map_subtype_val]

/-- Sorting asks nothing but how the members of the list stand to each other. -/
theorem mergeSort_congr {le other : α → α → Bool} (h : ∀ a ∈ l, ∀ b ∈ l, le a b = other a b) :
    l.mergeSort le = l.mergeSort other := by
  have hmembers : (fun a b : { x // x ∈ l } => le a b) = fun a b : { x // x ∈ l } => other a b := by
    funext a b
    exact h a a.2 b b.2
  rw [mergeSort_eq_map_attach le, mergeSort_eq_map_attach other, hmembers]

/-- What an order may put first can be told for all members, and of two members one may come first. -/
theorem trans_and_total_of_transCmp (h : TransCmp fun a b : { x // x ∈ l } => cmp a b) :
    (∀ a b c : { x // x ∈ l }, cmp a b != .gt → cmp b c != .gt → cmp a c != .gt) ∧
      ∀ a b : { x // x ∈ l }, (cmp a b != .gt || cmp b a != .gt) = true := by
  constructor
  · intro a b c hab hbc
    rw [bne_iff_ne] at hab hbc ⊢
    exact Ordering.isLE_iff_ne_gt.mp
      (h.isLE_trans (Ordering.isLE_iff_ne_gt.mpr hab) (Ordering.isLE_iff_ne_gt.mpr hbc))
  · intro a b
    have hswap : cmp b a = (cmp a b).swap := h.eq_swap
    rw [hswap]
    cases cmp a b <;> decide

/-- Sorting by an order of the members puts none behind one that comes after it. -/
theorem pairwise_mergeSort_of_transCmp (h : TransCmp fun a b : { x // x ∈ l } => cmp a b) :
    (l.mergeSort fun a b => cmp a b != .gt).Pairwise fun a b => cmp a b ≠ .gt := by
  obtain ⟨htrans, htotal⟩ := trans_and_total_of_transCmp h
  rw [mergeSort_eq_map_attach, List.pairwise_map]
  simpa using List.pairwise_mergeSort htrans htotal l.attach

/-- Sorting by an order of the members leaves those in place that are in order. -/
theorem sublist_mergeSort_of_transCmp (h : TransCmp fun a b : { x // x ∈ l } => cmp a b) {chosen : List α}
    (hchosen : chosen.Sublist l) (hordered : chosen.Pairwise fun a b => cmp a b ≠ .gt) :
    chosen.Sublist (l.mergeSort fun a b => cmp a b != .gt) := by
  obtain ⟨htrans, htotal⟩ := trans_and_total_of_transCmp h
  obtain ⟨members, hmembers, rfl⟩ : ∃ members : List { x // x ∈ l },
      members.Sublist l.attach ∧ chosen = members.map Subtype.val := by
    rw [← List.sublist_map_iff, List.attach_map_subtype_val]
    exact hchosen
  rw [mergeSort_eq_map_attach]
  refine (List.sublist_mergeSort htrans htotal ?_ hmembers).map _
  rw [List.pairwise_map] at hordered
  simpa using hordered

end Sorting

/-- Sorting by one column is sorting by what tells the rows apart in it. -/
theorem sortRows_of_compareEntry {entry : OrderBy} {cmp : Row → Row → Ordering} {rows : List Row}
    (h : ∀ a ∈ rows, ∀ b ∈ rows, compareEntry entry a b = cmp a b) :
    sortRows [entry] rows = rows.mergeSort fun a b => (cmp a b).isLE := by
  refine mergeSort_congr fun a ha b hb => ?_
  have hrows : compareRows [entry] a b = cmp a b := by
    rw [compareRows_cons, h a ha b hb]
    exact Ordering.then_eq
  rw [hrows]
  cases cmp a b <;> rfl

/-- Sorting rows by columns of one kind each puts them in order. -/
theorem sorts_sortRows {order : List OrderBy} {rows : List Row}
    (h : ∀ entry ∈ order, Json.OfOneKind (rows.map (·.getD entry.column))) :
    Sorts order rows (sortRows order rows) := by
  have hcmp := transCmp_compareRows h
  have hsort : sortRows order rows = rows.mergeSort fun a b => compareRows order a b != .gt := by
    rw [sortRows]
    split
    · rename_i hempty
      rw [List.isEmpty_iff.mp hempty]
      exact (List.mergeSort_of_pairwise (List.pairwise_of_forall fun _ _ => rfl)).symm
    · rfl
  rw [hsort]
  refine ⟨List.mergeSort_perm _ _, ?_, fun tied hsub htied => ?_⟩
  · refine (pairwise_mergeSort_of_transCmp hcmp).imp fun {a b} hab hprecedes => hab ?_
    rw [compareRows_swap order b a, compareRows_eq_lt_iff.mpr hprecedes]
    rfl
  · refine sublist_mergeSort_of_transCmp hcmp hsub (htied.imp fun hab => ?_)
    rw [compareRows_eq_eq_iff.mpr hab]
    decide

end Table

/-- Selecting with columns of one kind each gives a piece of the rows that the clause holds of, put in order. -/
theorem Store.select_sorts {s : Store} {t : Table} {selection : Selection}
    (ht : s.tables.get? selection.table = some t)
    (hkinds : ∀ entry ∈ selection.order,
      Json.OfOneKind ((t.rows.filter selection.clause.holds).map (·.getD entry.column))) :
    (∃ sorted, Table.Sorts selection.order (t.rows.filter selection.clause.holds) sorted ∧
      s.select selection =
        .ok (((sorted.drop (selection.offset.getD 0)).take (selection.limit.getD sorted.length)).map
          (Table.project selection.columns))) ∧
      Table.Orders selection.order (t.rows.filter selection.clause.holds) := by
  refine ⟨⟨_, Table.sorts_sortRows hkinds, ?_⟩, Table.orders_of_ofOneKind hkinds⟩
  have htable : s.table selection.table = .ok t := table_eq_ok_iff.mpr ht
  rw [select, htable]
  cases hlimit : selection.limit with
  | none =>
    have hall (rows : List Row) (n : Nat) : (rows.drop n).take rows.length = rows.drop n :=
      List.take_of_length_le (by simp)
    simp only [Except.map, Table.select, Table.matching, hlimit, Option.getD_none, hall]
  | some limit => simp only [Except.map, Table.select, Table.matching, hlimit, Option.getD_some]

/-- Books by pages, the longest first, and then by title. A whole number and a float are equal, so that two books of
one title keep their places; a boolean counts as a number, and books without pages come last. -/
theorem Store.select_sorts_books :
    let book (id : Nat) (title : String) (pages : List Json) : Row :=
      [(primaryKey, .ofNat id), ("title", .str title)] ++ pages.map fun value => ("pages", value)
    let whole := book 1 "Persuasion" [.ofNat 249]
    let float := book 4 "Persuasion" [.float (Binary64.ofInt 249)]
    let t : Table :=
      ⟨[whole, book 2 "Emma" [.null], book 3 "Sanditon" [.bool true], float, book 5 "Emma" []], 5⟩
    let s := (Store.ofTables []).withTable "book" t
    let selection : Selection :=
      ⟨"book", .empty, [], [⟨"pages", .desc⟩, ⟨"title", .asc⟩], some 3, some 1⟩
    s.tables.get? "book" = some t ∧
      (∀ entry ∈ selection.order,
        Json.OfOneKind ((t.rows.filter selection.clause.holds).map (·.getD entry.column))) ∧
      (∃ sorted, Table.Sorts selection.order t.rows sorted ∧ [whole, float].Sublist sorted ∧
        s.select selection = .ok (((sorted.drop 1).take 3).map (Table.project []))) ∧
      Table.Orders selection.order t.rows := by
  intro book whole float t s selection
  have ht : s.tables.get? "book" = some t := by rw [get?_withTable, if_pos rfl]
  have hkinds : ∀ entry ∈ selection.order,
      Json.OfOneKind ((t.rows.filter selection.clause.holds).map (·.getD entry.column)) := by
    simp only [Json.OfOneKind]
    decide +kernel
  obtain ⟨⟨sorted, hsorts, hselect⟩, horders⟩ := select_sorts ht hkinds
  have hchosen : [whole, float].Sublist t.rows := ((List.Sublist.refl [float]).append
    (List.nil_sublist [book 5 "Emma" []])).cons _ |>.cons _ |>.cons_cons whole
  have htied : [whole, float].Pairwise (Table.Tied selection.order) :=
    List.pairwise_pair.mpr (Table.compareRows_eq_eq_iff.mp (by decide +kernel))
  exact ⟨ht, hkinds, ⟨sorted, hsorts, hsorts.stable _ hchosen htied, hselect⟩, horders⟩

end SchemaQuery
