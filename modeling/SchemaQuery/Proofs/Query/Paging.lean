import SchemaQuery.Proofs.Query.Selecting
import SchemaQuery.Proofs.Storage.Steps

/-!
# Pages of a result

The pages of a request are cut out of what it gives without bounds. The places of a page are counted in 64
bits, and what would leave them stops at the greatest number; as no table has more rows than that, a page
holds the rows that exact counting gives it. One after another the pages therefore give the whole result,
and behind the last of them there is nothing.
-/

namespace SchemaQuery

/-! ## Places of pages -/

namespace Pagination

/-- The number of pages of a length that a number of rows fills, the last one perhaps in part. -/
def pageCount (count limit : Nat) : Nat :=
  (count + (limit - 1)) / limit

/-- The pages hold all rows. -/
theorem le_pageCount_mul (count : Nat) {limit : Nat} (hlimit : 0 < limit) :
    count ≤ pageCount count limit * limit := by
  have hbound : count + (limit - 1) ≤ limit * pageCount count limit + (limit - 1) :=
    (Nat.div_le_iff_le_mul_add_pred hlimit).mp (Nat.le_refl _)
  rw [Nat.mul_comm]
  omega

/-- A page behind the last one begins behind all rows. -/
theorem le_start_of_pageCount_lt {count page limit : Nat} (hlimit : 0 < limit)
    (hpage : pageCount count limit < page) : count ≤ (page - 1) * limit :=
  Nat.le_trans (le_pageCount_mul count hlimit) (Nat.mul_le_mul_right limit (by omega))

/-- A page that is asked for has a number and a length. -/
theorem resolve_pos (p : Pagination) (defaultLimit : Nat) :
    0 < (p.resolve defaultLimit).1 ∧ 0 < (p.resolve defaultLimit).2 := by
  have hpositive {n : Option Int} {fallback : Nat} (hfallback : 0 < fallback) :
      0 < (positive? n).getD fallback := by
    cases n with
    | none => exact hfallback
    | some n =>
      by_cases hn : 0 < n
      · simp only [positive?, Option.bind_some, if_pos hn, Option.getD_some]
        omega
      · simpa [positive?, hn] using hfallback
  refine ⟨hpositive Nat.one_pos, hpositive ?_⟩
  split
  · decide
  · omega

/-- A page of a positive number is the page of that number. -/
theorem resolve_number (n : Nat) (asked : Option Int) (defaultLimit : Nat) :
    resolve ⟨some (Int.ofNat (n + 1)), asked⟩ defaultLimit =
      (n + 1, (resolve ⟨none, asked⟩ defaultLimit).2) := by
  have hpositive : positive? (some (Int.ofNat (n + 1))) = some (n + 1) := by
    have hpos : 0 < Int.ofNat (n + 1) := Int.natCast_pos.mpr n.succ_pos
    rw [positive?, Option.bind_some, if_pos hpos]
    rfl
  rw [resolve, hpositive]
  rfl

end Pagination

/-! ## Cutting a range out of rows -/

/-- No table has more rows than can be counted in 64 bits. -/
def Store.Countable (s : Store) : Prop :=
  ∀ entry ∈ s.tables.entries, entry.2.rows.length ≤ Whole.greatest

instance (s : Store) : Decidable s.Countable :=
  inferInstanceAs (Decidable (∀ entry ∈ s.tables.entries, entry.2.rows.length ≤ Whole.greatest))

/-- A selection without its own bounds. -/
def Selection.unbounded (s : Selection) : Selection :=
  { s with limit := none, offset := none }

namespace Store

variable {s : Store}

/-- The rows from `start` up to and including `stop`, counted in 64 bits. -/
def cut (rows : List Row) (start stop : Nat) : List Row :=
  if stop < start then [] else (rows.drop start).take (min (stop - start + 1) Whole.greatest)

/-- Changing rows and cutting a range out of them can be done in either order. -/
theorem map_cut (f : Row → Row) (rows : List Row) (start stop : Nat) :
    (cut rows start stop).map f = cut (rows.map f) start stop := by
  rw [cut, cut]
  split
  · rfl
  · rw [List.map_take, List.map_drop]

/-- Of no more rows than 64 bits can count, the rows behind a place are the same where the counting stops
at the greatest number. -/
theorem cut_eq_take_drop {rows : List Row} (hrows : rows.length ≤ Whole.greatest) (start : Nat)
    {limit : Nat} (hlimit : 0 < limit) :
    cut rows (min start Whole.greatest)
        (min (min start Whole.greatest + (limit - 1)) Whole.greatest) =
      (rows.drop start).take limit := by
  rw [cut, if_neg (by omega)]
  by_cases hstart : rows.length ≤ start
  · -- Behind the last row both are empty, wherever the counting stopped.
    rw [List.drop_eq_nil_of_le hstart, List.drop_eq_nil_of_le (by omega), List.take_nil, List.take_nil]
  · have hkept : min start Whole.greatest = start := by omega
    rw [hkept, List.take_eq_take_iff, List.length_drop]
    omega

/-- A range of a selection is cut out of what the selection gives without bounds. -/
theorem selectRange_eq (selection : Selection) (start stop : Nat) :
    s.selectRange selection start stop =
      (s.select selection.unbounded).map fun rows => ⟨cut rows start stop, rows.length⟩ := by
  have htable : s.table selection.unbounded.table = s.table selection.table := rfl
  rw [selectRange, select, htable]
  cases s.table selection.table with
  | error fault => rfl
  | ok table =>
    have hselect : table.select selection.unbounded =
        (table.matching selection.clause selection.order).map (Table.project selection.columns) := rfl
    simp only [Except.map, hselect, List.length_map, ← map_cut]
    rfl

/-- A selection without bounds gives a row for each row of its table that its clause holds of. -/
theorem length_select_unbounded {selection : Selection} {rows : List Row}
    (h : s.select selection.unbounded = .ok rows) :
    ∃ table, s.tables.get? selection.table = some table ∧
      rows.length = (table.rows.filter selection.clause.holds).length := by
  obtain ⟨table, htable, rfl⟩ := map_eq_ok_iff.mp h
  refine ⟨table, table_eq_ok_iff.mp htable, ?_⟩
  change ((table.matching selection.clause selection.order).map _).length = _
  rw [List.length_map, Table.matching, Table.sortRows]
  split
  · rfl
  · exact List.length_mergeSort _

end Store

/-! ## Requests for pages -/

/-- A request without its own bounds. -/
def Request.unbounded (r : Request) : Request :=
  { r with limit := none, offset := none }

/-- A request that takes all rows selects without bounds what it selects, but for its bounds. -/
theorem Request.selection_unbounded {r : Request} (hall : r.first = false) (clause : Clause) :
    r.unbounded.selection clause = (r.selection clause).unbounded := by
  simp [selection, unbounded, Selection.unbounded, rowLimit, requiredColumns, hall]

namespace Database

variable {db : Database} {r : Request}

/-- Where no relations are loaded, rows are finished by cutting them to the asked columns. -/
theorem finish_of_plain {c : CompiledRequest} (hpopulate : c.populate = []) (rows : List Row) :
    db.finish c rows = .ok (rows.map (c.projection.apply [])) := by
  rw [finish, hpopulate]
  rfl

/-- What a request for rows that loads no relations gives without bounds. -/
theorem run_unbounded_eq (hkind : r.kind = .select) (hall : r.first = false) (hpopulate : r.populate = []) :
    (db.run r.unbounded).result =
      match r.filter.compile with
      | .error fault => .error (.filter fault)
      | .ok tree =>
        (liftStore (db.store.select (r.selection (Clause.ofPredicate tree)).unbounded)).map fun rows =>
          .rows (rows.map (r.projection.apply [])) := by
  have hfilter : r.unbounded.filter = r.filter := rfl
  have hplain : r.unbounded.populate = [] := hpopulate
  have hfirst : r.unbounded.first = false := hall
  rw [run, Request.compile_select (r := r.unbounded) hkind, hfilter, hplain]
  cases r.filter.compile with
  | error fault => rfl
  | ok tree =>
    simp only [Load.checkAll, Except.map, result_execute_select, Request.selection_unbounded hall, hfirst]
    cases liftStore (db.store.select (r.selection (Clause.ofPredicate tree)).unbounded) with
    | error fault => rfl
    | ok rows =>
      simp only [bind, Except.bind, finish_of_plain (c := r.unbounded.selecting tree) hplain]
      rfl

/-- A page of a request for rows is cut out of what the request gives without bounds. -/
theorem paginate_eq (hkind : r.kind = .select) (hall : r.first = false) (hpopulate : r.populate = [])
    (p : Pagination) :
    (db.paginate r p).result = (db.run r.unbounded).result.map fun output =>
      let page := p.resolve r.pageLimit
      let range := Pagination.range page.1 page.2
      (Store.cut output.toRows range.1 range.2, ⟨page.1, page.2, output.toRows.length⟩) := by
  rw [run_unbounded_eq hkind hall hpopulate, paginate, if_neg (by simp [hkind, hall])]
  simp only [Request.compile_select hkind, hpopulate, Load.checkAll]
  cases r.filter.compile with
  | error fault => rfl
  | ok tree =>
    simp only [Except.map, result_executeRange_select, Store.selectRange_eq]
    cases db.store.select (r.selection (Clause.ofPredicate tree)).unbounded with
    | error fault => rfl
    | ok rows =>
      simp only [liftStore, bind, Except.bind, Output.toRows, ← Store.map_cut, List.length_map,
        finish_of_plain (c := r.selecting tree) hpopulate]
      rfl

/-- A request that gives rows without bounds gives a row for each row of its table that its filter holds of. -/
theorem length_run_unbounded (hkind : r.kind = .select) (hall : r.first = false)
    (hpopulate : r.populate = []) {output : Output} (h : (db.run r.unbounded).result = .ok output) :
    ∃ rows tree table, output = .rows rows ∧ r.filter.compile = .ok tree ∧
      db.store.tables.get? r.model.table = some table ∧
      rows.length = (table.rows.filter (Clause.ofPredicate tree).holds).length := by
  rw [run_unbounded_eq hkind hall hpopulate] at h
  cases hfilter : r.filter.compile with
  | error fault =>
    rw [hfilter] at h
    cases h
  | ok tree =>
    simp only [hfilter] at h
    obtain ⟨rows, hrows, rfl⟩ := map_eq_ok_iff.mp h
    cases hselect : db.store.select (r.selection (Clause.ofPredicate tree)).unbounded with
    | error fault =>
      rw [hselect] at hrows
      cases hrows
    | ok selected =>
      rw [hselect] at hrows
      obtain rfl := Except.ok.inj hrows
      obtain ⟨table, htable, hlength⟩ := Store.length_select_unbounded hselect
      exact ⟨_, tree, table, rfl, rfl, htable, by rw [List.length_map, hlength]; rfl⟩

/-- The first `n` pages of a request, one after another, with the length that is asked for. -/
def firstPages (db : Database) (r : Request) (asked : Option Int) : Nat → Except QueryError (List Row)
  | 0 => .ok []
  | n + 1 => do
    let before ← firstPages db r asked n
    let (page, _) ← (db.paginate r ⟨some (Int.ofNat (n + 1)), asked⟩).result
    return before ++ page

/-- The pages of a request tile its rows: each holds the rows at its places and tells how many there are in
all, together they are all rows, and behind them nothing comes. -/
structure Tiled (db : Database) (r : Request) (rows : List Row) : Prop where
  /-- The rows are as many as the filter holds of. -/
  counted : ∃ tree table, r.filter.compile = .ok tree ∧
    db.store.tables.get? r.model.table = some table ∧
    rows.length = (table.rows.filter (Clause.ofPredicate tree).holds).length
  /-- A page is what lies between its places. -/
  placed : ∀ p : Pagination, ∀ page limit, p.resolve r.pageLimit = (page, limit) →
    (db.paginate r p).result =
      .ok (rows.extract ((page - 1) * limit) (page * limit), ⟨page, limit, rows.length⟩)
  /-- The pages that the rows fill are the rows. -/
  whole : ∀ asked limit, (Pagination.resolve ⟨none, asked⟩ r.pageLimit).2 = limit →
    db.firstPages r asked (Pagination.pageCount rows.length limit) = .ok rows
  /-- A later page is empty. -/
  later : ∀ p : Pagination, ∀ page limit, p.resolve r.pageLimit = (page, limit) →
    Pagination.pageCount rows.length limit < page →
    (db.paginate r p).result = .ok ([], ⟨page, limit, rows.length⟩)

/-- A page of the rows that a request gives without bounds is what lies between its places. -/
theorem paginate_eq_extract (hstore : db.store.Countable) (hkind : r.kind = .select)
    (hall : r.first = false) (hpopulate : r.populate = []) {rows : List Row}
    (hrows : (db.run r.unbounded).result = .ok (.rows rows)) {p : Pagination} {page limit : Nat}
    (hresolve : p.resolve r.pageLimit = (page, limit)) :
    (db.paginate r p).result =
      .ok (rows.extract ((page - 1) * limit) (page * limit), ⟨page, limit, rows.length⟩) := by
  obtain ⟨hpage, hlimit⟩ := p.resolve_pos r.pageLimit
  rw [hresolve] at hpage hlimit
  obtain ⟨_, tree, table, houtput, -, htable, hlength⟩ :=
    length_run_unbounded hkind hall hpopulate hrows
  obtain rfl := Output.rows.inj houtput
  have hcount : rows.length ≤ Whole.greatest := by
    rw [hlength]
    exact Nat.le_trans (List.length_filter_le ..) (hstore _ (Dictionary.get?_eq_some_iff.mp htable))
  rw [paginate_eq hkind hall hpopulate, hrows, hresolve]
  have hend : page * limit = (page - 1) * limit + limit := by
    rw [← Nat.succ_mul, Nat.succ_eq_add_one, Nat.sub_add_cancel hpage]
  simp only [Except.map, Output.toRows, Pagination.range]
  rw [Store.cut_eq_take_drop hcount _ hlimit, List.extract_eq_take_drop, hend, Nat.add_sub_cancel_left]

/-- The first `n` pages of the rows that a request gives without bounds are the rows before the place where
the next page begins. -/
theorem firstPages_eq_take (hstore : db.store.Countable) (hkind : r.kind = .select)
    (hall : r.first = false) (hpopulate : r.populate = []) {rows : List Row}
    (hrows : (db.run r.unbounded).result = .ok (.rows rows)) (asked : Option Int) (n : Nat) :
    db.firstPages r asked n =
      .ok (rows.take (n * (Pagination.resolve ⟨none, asked⟩ r.pageLimit).2)) := by
  induction n with
  | zero => simp [firstPages]
  | succ n ih =>
    have hpage := paginate_eq_extract hstore hkind hall hpopulate hrows
      (Pagination.resolve_number n asked r.pageLimit)
    rw [firstPages, ih, hpage, List.extract_eq_take_drop, Nat.succ_mul, Nat.add_sub_cancel,
      Nat.add_sub_cancel_left, List.take_add]
    rfl

/-- Pages of a request that takes all rows and loads no relations tile what the request gives without its own
bounds; what the request fails with, every page fails with. It fails only when its filter is refused or its
table is not there. The rows of a table that is kept in memory can be counted in 64 bits. -/
theorem paginate_tiles (hstore : db.store.Countable) (hkind : r.kind = .select)
    (hall : r.first = false) (hpopulate : r.populate = []) :
    (∀ fault, (db.run r.unbounded).result = .error fault →
      ∀ p, (db.paginate r p).result = .error fault) ∧
    (∀ output, (db.run r.unbounded).result = .ok output →
      ∃ rows, output = .rows rows ∧ db.Tiled r rows) ∧
    (∀ tree, r.filter.compile = .ok tree → db.store.tables.contains r.model.table →
      ∃ output, (db.run r.unbounded).result = .ok output) := by
  refine ⟨fun fault hfault p => ?_, fun output houtput => ?_, fun tree htree htable => ?_⟩
  · rw [paginate_eq hkind hall hpopulate, hfault]
    rfl
  · obtain ⟨rows, tree, table, rfl, htree, htable, hlength⟩ :=
      length_run_unbounded hkind hall hpopulate houtput
    have hplaced {p : Pagination} {page limit : Nat} (hresolve : p.resolve r.pageLimit = (page, limit)) :=
      paginate_eq_extract hstore hkind hall hpopulate houtput hresolve
    refine ⟨rows, rfl, ⟨tree, table, htree, htable, hlength⟩, fun _ _ _ => hplaced,
      fun asked limit hlimit => ?_, fun p page limit hresolve hlater => ?_⟩
    · have hpos : 0 < limit := hlimit ▸ (Pagination.resolve_pos ⟨none, asked⟩ r.pageLimit).2
      rw [firstPages_eq_take hstore hkind hall hpopulate houtput, hlimit,
        List.take_of_length_le (Pagination.le_pageCount_mul _ hpos)]
    · have hpos : 0 < limit := by
        have hresolved := (p.resolve_pos r.pageLimit).2
        rwa [hresolve] at hresolved
      have hbehind := Pagination.le_start_of_pageCount_lt hpos hlater
      rw [hplaced hresolve, List.extract_eq_take_drop, List.drop_eq_nil_of_le hbehind, List.take_nil]
  · obtain ⟨table, htable⟩ := (Dictionary.contains_eq_true_iff ..).mp htable
    have hselect : db.store.select (r.selection (Clause.ofPredicate tree)).unbounded =
        .ok (table.select (r.selection (Clause.ofPredicate tree)).unbounded) := by
      have hopen : db.store.table (r.selection (Clause.ofPredicate tree)).unbounded.table = .ok table :=
        Store.table_eq_ok_iff.mpr htable
      rw [Store.select, hopen]
      rfl
    rw [run_unbounded_eq hkind hall hpopulate, htree]
    simp only [hselect]
    exact ⟨_, rfl⟩

/-- Books with a year, by their titles alone: two of three on the first page and the last one on the second,
though the request itself asks for one row and skips one. -/
theorem paginate_tiles_books :
    let book : Model := ⟨"Book", "book", .empty, .empty⟩
    let store := (Store.ofTables ["book"]).run
      [.insert "book" [("title", .str "Emma"), ("year", .ofNat 1815)],
        .insert "book" [("title", .str "Sanditon"), ("year", .null)],
        .insert "book" [("title", .str "Persuasion"), ("year", .ofNat 1817)],
        .insert "book" [("title", .str "Pride and Prejudice"), ("year", .ofNat 1813)]]
    let db : Database := ⟨⟨.ofList [("Book", book)], .empty, .empty⟩, store, default⟩
    let r : Request :=
      { Request.ofKind book .select defaultPageLimit with
        filter := [("year", .obj [("$ne", .null)])]
        projection := ⟨["title"], []⟩
        limit := some 1
        offset := some 1 }
    let rows : List Row :=
      [[("title", .str "Emma")], [("title", .str "Persuasion")], [("title", .str "Pride and Prejudice")]]
    db.store.Countable ∧ r.kind = .select ∧ r.first = false ∧ r.populate = [] ∧
      (db.run r.unbounded).result = .ok (.rows rows) ∧ db.Tiled r rows ∧
      (db.paginate r ⟨some 2, some 2⟩).result =
        .ok ([[("title", .str "Pride and Prejudice")]], ⟨2, 2, 3⟩) := by
  intro book store db r rows
  have hstore : db.store.Countable := by decide +kernel
  have hrows : (db.run r.unbounded).result = .ok (.rows rows) := by rfl
  obtain ⟨_, hok, -⟩ := paginate_tiles (r := r) hstore rfl rfl rfl
  obtain ⟨_, houtput, htiled⟩ := hok _ hrows
  obtain rfl := Output.rows.inj houtput
  exact ⟨hstore, rfl, rfl, rfl, hrows, htiled, htiled.placed ⟨some 2, some 2⟩ 2 2 rfl⟩

end Database

end SchemaQuery
