import SchemaQuery.Proofs.Storage.PrimaryKeys

/-!
# Rows in the order of their primary keys

Sorting is stable, so that choosing among sorted rows is sorting the chosen ones, whenever the order is a
total one. The order of column values is no such order in general, for values that cannot be compared count
as equal; among primary keys, which are numbers, it is.
-/

namespace SchemaQuery

section Stability

variable {α : Type} {le : α → α → Bool}

/-- A list is cut in one way only into values that a test fails on and values that it holds of. -/
theorem append_inj_of_test (test : α → Bool) {before after before' after' : List α}
    (hbefore : ∀ b ∈ before, test b = false) (hafter : ∀ b ∈ after, test b = true)
    (hbefore' : ∀ b ∈ before', test b = false) (hafter' : ∀ b ∈ after', test b = true)
    (h : before ++ after = before' ++ after') : before = before' ∧ after = after' := by
  induction before generalizing before' with
  | nil =>
    cases before' with
    | nil => exact ⟨rfl, h⟩
    | cons b rest =>
      have hmem : b ∈ after := by
        rw [List.nil_append] at h
        exact h ▸ List.mem_cons_self
      exact absurd (hafter b hmem) (by simp [hbefore' b List.mem_cons_self])
  | cons b rest ih =>
    cases before' with
    | nil =>
      have hmem : b ∈ after' := by
        rw [List.nil_append] at h
        exact h ▸ List.mem_cons_self
      exact absurd (hafter' b hmem) (by simp [hbefore b List.mem_cons_self])
    | cons b' rest' =>
      obtain ⟨rfl, hrest⟩ := List.cons.inj h
      obtain ⟨rfl, hafters⟩ := ih (fun c hc => hbefore c (List.mem_cons_of_mem _ hc))
        (fun c hc => hbefore' c (List.mem_cons_of_mem _ hc)) hrest
      exact ⟨rfl, hafters⟩

/-- Choosing among the sorted values of a list is sorting the chosen ones. -/
theorem filter_mergeSort (trans : ∀ a b c, le a b → le b c → le a c) (total : ∀ a b, le a b || le b a)
    (p : α → Bool) (l : List α) : (l.mergeSort le).filter p = (l.filter p).mergeSort le := by
  induction l with
  | nil => simp
  | cons a l ih =>
    -- The value goes behind those that are strictly before it, in the list and among the chosen ones.
    obtain ⟨before, after, hsort, hrest, hbefore⟩ := List.mergeSort_cons trans total a l
    have hsorted := List.pairwise_mergeSort trans total (a :: l)
    rw [hsort] at hsorted
    have hafter : ∀ b ∈ after, le a b = true :=
      (List.pairwise_cons.mp (List.pairwise_append.mp hsorted).2.1).1
    rw [hsort, List.filter_append]
    rw [hrest, List.filter_append] at ih
    by_cases hp : p a = true
    · obtain ⟨before', after', hsort', hrest', hbefore'⟩ := List.mergeSort_cons trans total a (l.filter p)
      have hsorted' := List.pairwise_mergeSort trans total (a :: l.filter p)
      rw [hsort'] at hsorted'
      have hafter' : ∀ b ∈ after', le a b = true :=
        (List.pairwise_cons.mp (List.pairwise_append.mp hsorted').2.1).1
      obtain ⟨hfront, hback⟩ := append_inj_of_test (le a)
        (fun b hb => by simpa using hbefore b (List.mem_filter.mp hb).1)
        (fun b hb => hafter b (List.mem_filter.mp hb).1)
        (fun b hb => by simpa using hbefore' b hb) hafter' (ih.trans hrest')
      rw [List.filter_cons_of_pos hp, List.filter_cons_of_pos hp, hsort', hfront, hback]
    · rw [List.filter_cons_of_neg hp, List.filter_cons_of_neg hp, ih]

end Stability

namespace Table

/-- Whether a row may stand before another in the order of primary keys. -/
def byPrimaryKey (a b : Row) : Bool :=
  compareColumn (a.getD primaryKey) (b.getD primaryKey) != .gt

/-- Sorting by the primary key alone. -/
theorem sortRows_primaryKey (rows : List Row) :
    sortRows [⟨primaryKey, .asc⟩] rows = rows.mergeSort byPrimaryKey := by
  have hcompare : (fun a b => compareRows [⟨primaryKey, .asc⟩] a b != .gt) = byPrimaryKey := by
    funext a b
    simp [compareRows, byPrimaryKey]
  rw [sortRows, hcompare]
  rfl

/-- The place of a row in the order of primary keys. -/
def place (row : Row) : Int :=
  ((row.getD primaryKey).asNumber?.getD default).key

/-- Numbers are ordered by their values as floats. -/
theorem compareColumn_of_numbers {a b : Json} {x y : Binary64} (ha : a.asNumber? = some x)
    (hb : b.asNumber? = some y) : compareColumn a b = compare x.key y.key := by
  have hcompare : a.compareValues? b = some (compare x.key y.key) := by
    rw [Json.compareValues?, ha, hb]
    · rfl
    · rintro text _ rfl _
      cases ha
  have hleft : a.isNull = false := by cases a <;> simp_all [Json.asNumber?, Json.isNull]
  have hright : b.isNull = false := by cases b <;> simp_all [Json.asNumber?, Json.isNull]
  rw [compareColumn, hleft, hright, hcompare]
  rfl

/-- Rows led by numbers stand in the order of their places. -/
theorem byPrimaryKey_of_head? {a b : Row} {m n : Nat} (ha : a.head? = some (primaryKey, .ofNat m))
    (hb : b.head? = some (primaryKey, .ofNat n)) : byPrimaryKey a b = decide (place a ≤ place b) := by
  have hm := asNumber?_of_head? ha
  have hn := asNumber?_of_head? hb
  rw [byPrimaryKey, compareColumn_of_numbers hm hn, place, place, hm, hn, Bool.eq_iff_iff]
  simp only [bne_iff_ne, ne_eq, Option.getD_some, decide_eq_true_eq, compare, compareOfLessAndEq]
  split
  · simp only [reduceCtorEq, not_false_eq_true, true_iff]
    omega
  · split
    · simp only [reduceCtorEq, not_false_eq_true, true_iff]
      omega
    · simp only [not_true_eq_false, false_iff]
      omega

/-- Choosing among the sorted rows of a table is sorting the chosen ones. -/
theorem filter_sortRows {t : Table} (ht : t.LedBy fun _ => True) (p q : Row → Bool) :
    ((t.rows.filter p).mergeSort byPrimaryKey).filter q =
      ((t.rows.filter p).filter q).mergeSort byPrimaryKey := by
  have hplaces {rows : List Row} (hrows : ∀ row ∈ rows, row ∈ t.rows) :
      rows.mergeSort byPrimaryKey = rows.mergeSort fun a b => decide (place a ≤ place b) := by
    have hmap := List.map_mergeSort (f := id) (l := rows) (r := byPrimaryKey)
      (s := fun a b => decide (place a ≤ place b)) fun a ha b hb => by
        obtain ⟨m, -, hm⟩ := ht a (hrows a ha)
        obtain ⟨n, -, hn⟩ := ht b (hrows b hb)
        exact byPrimaryKey_of_head? hm hn
    simpa using hmap
  have hchosen : ∀ row ∈ t.rows.filter p, row ∈ t.rows := fun row hrow => (List.mem_filter.mp hrow).1
  rw [hplaces hchosen, hplaces fun row hrow => hchosen row (List.mem_filter.mp hrow).1]
  refine filter_mergeSort (fun a b c hab hbc => ?_) (fun a b => ?_) q _
  · simp only [decide_eq_true_eq] at hab hbc ⊢
    omega
  · simp only [Bool.or_eq_true, decide_eq_true_eq]
    omega

end Table

end SchemaQuery
