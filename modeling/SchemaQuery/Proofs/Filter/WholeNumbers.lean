import SchemaQuery.Filter.Clause
import SchemaQuery.Proofs.Json.Rounding

/-!
# Comparing whole numbers

Whole numbers compare as floats, so as the nearest numbers of 53 digits. The order of two of them is never turned
around, but two that are rounded to one number are equal to every comparison, and a condition that asks for one of
them holds of the other. These are the only two that are not compared as they are; a number below 2⁵³ in size
is never one of them.
-/

namespace SchemaQuery

open Binary64

variable {a b : Whole}

/-- A whole number fits 64 bits. -/
theorem Whole.natAbs_lt (a : Whole) : a.val.natAbs < 2 ^ 65 := by
  have hlower : -0x8000000000000000 ≤ a.val := a.lower
  have hupper : a.val ≤ (0xFFFFFFFFFFFFFFFF : Nat) := a.upper
  omega

/-- What two whole numbers have to be to each other for a comparison to hold. -/
def Comparison.OfWholes (a b : Int) : Comparison → Prop
  | .equal => a = b
  | .notEqual => a ≠ b
  | .greater => b < a
  | .atLeast => b ≤ a
  | .less => a < b
  | .atMost => a ≤ b
  | .isNotNull => True
  | .like | .oneOf | .isNull => False

/-- Whether two whole numbers are compared as the numbers that they are: by their values, and by every condition
that asks one of a column that holds the other. -/
structure Whole.ComparesExactly (a b : Whole) : Prop where
  equal : (Json.int a).equals (.int b) = true ↔ a.val = b.val
  order : (Json.int a).compareValues? (.int b) = some (compare a.val b.val)
  condition : ∀ (c : Condition) (row : Row), row.getD c.field = .int a → c.operand = .int b →
    (c.holds row = true ↔ c.op.OfWholes a.val b.val)

/-- Whole numbers compare as the nearest numbers of 53 digits. -/
theorem Json.compareValues?_int (a b : Whole) :
    (Json.int a).compareValues? (.int b) = some (compare (nearestInt a.val) (nearestInt b.val)) :=
  congrArg some (compare_key_ofInt a.natAbs_lt b.natAbs_lt)

/-- Whole numbers are equal when they are rounded to one number. -/
theorem Json.equals_int (a b : Whole) :
    (Json.int a).equals (.int b) = true ↔ nearestInt a.val = nearestInt b.val := by
  have hkeys := compare_key_ofInt a.natAbs_lt b.natAbs_lt
  rw [← Int.compare_eq_eq, ← hkeys, Int.compare_eq_eq]
  exact beq_iff_eq

/-- A condition on values that compare as two numbers do holds when the numbers are so to each other. -/
theorem Condition.holds_iff_of_compare {x y : Json} {m n : Int} (hx : x.isNull = false) (hy : y.isNull = false)
    (hequal : x.equals y = true ↔ m = n) (horder : x.compareValues? y = some (compare m n)) {c : Condition} {row : Row}
    (hrow : row.getD c.field = x) (hoperand : c.operand = y) (hlike : c.op ≠ .like) (hlist : c.op ≠ .oneOf) :
    c.holds row = true ↔ c.op.OfWholes m n := by
  obtain ⟨field, op, operand⟩ := c
  simp only at hrow hoperand hlike hlist
  subst hoperand
  have hless : compare m n = .lt ↔ m < n := Int.compare_eq_lt
  have hgreater : compare m n = .gt ↔ n < m := Int.compare_eq_gt
  have heq : compare m n = .eq ↔ m = n := Int.compare_eq_eq
  cases op <;> simp [holds, hrow, hx, hy, Comparison.OfWholes, hequal, horder, hless, hgreater, heq,
    ← Bool.not_eq_true] at hlike hlist ⊢
  case atLeast => omega
  case atMost => omega

/-- A condition on whole numbers that compare as they are holds when the numbers are so to each other. -/
theorem Condition.holds_iff_ofWholes (hequal : (Json.int a).equals (.int b) = true ↔ a.val = b.val)
    (horder : (Json.int a).compareValues? (.int b) = some (compare a.val b.val)) {c : Condition} {row : Row}
    (hrow : row.getD c.field = .int a) (hoperand : c.operand = .int b) :
    c.holds row = true ↔ c.op.OfWholes a.val b.val := by
  by_cases hother : c.op = .like ∨ c.op = .oneOf
  · -- A pattern or a list that is a number holds of nothing.
    rcases hother with hop | hop <;> simp [holds, hop, hrow, hoperand, Comparison.OfWholes, Json.isNull]
  · obtain ⟨hlike, hlist⟩ := not_or.mp hother
    exact holds_iff_of_compare rfl rfl hequal horder hrow hoperand hlike hlist

/-- Two whole numbers compare as the nearest numbers of 53 digits. They are compared as they are unless they are
different and rounded to one number, which happens to no number below 2⁵³ in size. -/
theorem Whole.comparesExactly_iff (a b : Whole) :
    (Json.int a).compareValues? (.int b) = some (compare (nearestInt a.val) (nearestInt b.val)) ∧
      (ComparesExactly a b ↔ (nearestInt a.val = nearestInt b.val → a.val = b.val)) ∧
      (a.val.natAbs < 2 ^ 53 ∨ b.val.natAbs < 2 ^ 53 → ComparesExactly a b) := by
  have hequal := Json.equals_int a b
  have hcompare := Json.compareValues?_int a b
  have hexact (h : nearestInt a.val = nearestInt b.val → a.val = b.val) : ComparesExactly a b := by
    rw [Iff.intro h (congrArg nearestInt)] at hequal
    rw [compare_nearestInt h] at hcompare
    exact ⟨hequal, hcompare, fun c row => Condition.holds_iff_ofWholes hequal hcompare⟩
  refine ⟨hcompare, ⟨fun exact h => exact.equal.mp (hequal.mpr h), hexact⟩,
    fun hsmall => hexact fun h => ?_⟩
  rcases hsmall with ha | hb
  · exact eq_of_nearestInt_eq ha h
  · exact (eq_of_nearestInt_eq hb h.symm).symm

/-- The greatest number that is never rounded is told apart from the one that is. -/
theorem Whole.comparesExactly_iff_limit :
    let a : Whole := ⟨0x1FFFFFFFFFFFFF, by decide, by decide⟩
    let b : Whole := ⟨0x20000000000001, by decide, by decide⟩
    a.val.natAbs < 2 ^ 53 ∧ nearestInt b.val = 0x20000000000000 ∧ ComparesExactly a b := by
  intro a b
  have ha : a.val.natAbs < 2 ^ 53 := by decide
  exact ⟨ha, by decide, (comparesExactly_iff a b).2.2 (Or.inl ha)⟩

/-- The number 2⁵³ and the next one are equal to every comparison, and a condition that asks for the one holds of
the other. -/
theorem Whole.neighbours_equal :
    let a : Whole := ⟨0x20000000000000, by decide, by decide⟩
    let b : Whole := ⟨0x20000000000001, by decide, by decide⟩
    a.val ≠ b.val ∧ (Json.int a).equals (.int b) = true ∧
      (Json.int a).compareValues? (.int b) = some .eq ∧
      (Condition.equal "author_id" (.int b)).holds [("author_id", .int a)] = true := by
  intro a b
  decide +kernel

end SchemaQuery
