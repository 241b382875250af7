import Mathlib.Algebra.Group.Nat.Defs
import SchemaQuery.Json.Binary64

/-!
# Whole numbers as floats

Every natural number below 2⁵³ is a float, so that it keeps its place among all of them: whatever number is
above it is above it as a float too. From 2⁵³ on neighbours may fall together.
-/

namespace SchemaQuery

namespace Binary64

/-- Rounding never goes below the whole part. -/
theorem div_le_roundQuotient (a b : Nat) : a / b ≤ roundQuotient a b := by
  simp only [roundQuotient]
  split
  · exact Nat.le_refl _
  · exact Nat.le_succ _

/-- A quotient without rest is not rounded. -/
theorem roundQuotient_mul (q : Nat) {b : Nat} (hb : 0 < b) : roundQuotient (q * b) b = q := by
  have hmod : q * b % b = 0 := Nat.mul_mod_left q b
  have hdiv : q * b / b = q := Nat.mul_div_cancel q hb
  simp only [roundQuotient, hmod, hdiv, Nat.mul_zero, hb, true_or, if_true]

/-- Doubling moves the leading bit. -/
theorem log2_mul_two_pow {n : Nat} (hn : n ≠ 0) (k : Nat) : (n * 2 ^ k).log2 = n.log2 + k := by
  have hpos := Nat.two_pow_pos k
  refine (Nat.log2_eq_iff (Nat.mul_ne_zero hn (Nat.ne_of_gt hpos))).mpr ⟨?_, ?_⟩
  · rw [Nat.pow_add]
    exact Nat.mul_le_mul_right _ (Nat.log2_self_le hn)
  · rw [Nat.add_right_comm, Nat.pow_add]
    exact Nat.mul_lt_mul_of_pos_right Nat.lt_log2_self hpos

/-- The significand of a number with its leading bit at `e` has its leading bit at 52. -/
theorem le_roundQuotient {n e : Nat} (he : 2 ^ e ≤ n) (k : Nat) :
    2 ^ 52 ≤ roundQuotient (n * 2 ^ (52 + k)) (2 ^ (e + k)) := by
  refine Nat.le_trans ?_ (div_le_roundQuotient _ _)
  rw [Nat.le_div_iff_mul_le (Nat.two_pow_pos _), ← Nat.pow_add]
  calc 2 ^ (52 + (e + k)) = 2 ^ e * 2 ^ (52 + k) := by rw [← Nat.pow_add, Nat.add_left_comm]
    _ ≤ n * 2 ^ (52 + k) := Nat.mul_le_mul_right _ he

/-- The significand of a number with at most 53 bits is exact. -/
theorem roundQuotient_of_le {e : Nat} (he : e ≤ 52) (n k : Nat) :
    roundQuotient (n * 2 ^ (52 + k)) (2 ^ (e + k)) = n * 2 ^ (52 - e) := by
  have hsplit : n * 2 ^ (52 + k) = n * 2 ^ (52 - e) * 2 ^ (e + k) := by
    rw [Nat.mul_assoc, ← Nat.pow_add]
    congr 2
    omega
  rw [hsplit, roundQuotient_mul _ (Nat.two_pow_pos _)]

/-- The significand of a number with at most 53 bits has 53 bits. -/
theorem mul_two_pow_lt {n : Nat} (hn : n.log2 ≤ 52) : n * 2 ^ (52 - n.log2) < 2 ^ 53 := by
  calc n * 2 ^ (52 - n.log2) < 2 ^ (n.log2 + 1) * 2 ^ (52 - n.log2) :=
        Nat.mul_lt_mul_of_pos_right Nat.lt_log2_self (Nat.two_pow_pos _)
    _ = 2 ^ 53 := by
        rw [← Nat.pow_add]
        congr 1
        omega

/-- One, counted in units, is a power of two. The exponent is kept apart, as a number too great to expand. -/
theorem exists_unitsOfOne : ∃ k, k = 1022 ∧ unitsOfOne = 2 ^ (52 + k) :=
  ⟨1022, rfl, by decide +kernel⟩

/-- The magnitude of a natural number: the place of its leading bit, and the rounded significand. -/
theorem magnitudeOfUnits_of_ne_zero {n k : Nat} (hn : n ≠ 0) :
    magnitudeOfUnits (n * 2 ^ (52 + k)) 1 =
      (n.log2 + k) * 2 ^ 52 + roundQuotient (n * 2 ^ (52 + k)) (2 ^ (n.log2 + k)) := by
  have hscale : (n * 2 ^ (52 + k) / 1).log2 - 52 = n.log2 + k := by
    rw [Nat.div_one, log2_mul_two_pow hn]
    omega
  have hsteps : stepsPerScale = 2 ^ 52 := rfl
  have hpow : Nat.pow 2 (n.log2 + k) = 2 ^ (n.log2 + k) := rfl
  simp only [magnitudeOfUnits, hscale, hsteps, hpow, Nat.one_mul]

/-- The magnitude of zero. -/
theorem magnitudeOfUnits_zero : magnitudeOfUnits 0 1 = 0 := rfl

/-- The magnitude of a natural number is at least that of its leading bit. -/
theorem le_magnitudeOfUnits {n : Nat} (hn : n ≠ 0) :
    (n.log2 + 1022) * 2 ^ 52 + 2 ^ 52 ≤ magnitudeOfUnits (n * unitsOfOne) 1 := by
  obtain ⟨k, hk, hunits⟩ := exists_unitsOfOne
  rw [hunits, magnitudeOfUnits_of_ne_zero hn, ← hk]
  exact Nat.add_le_add_left (le_roundQuotient (Nat.log2_self_le hn) k) _

/-- The magnitude of a number below 2⁵³ is exact. -/
theorem magnitudeOfUnits_of_lt {n : Nat} (hn : n ≠ 0) (hbits : n.log2 ≤ 52) :
    magnitudeOfUnits (n * unitsOfOne) 1 = (n.log2 + 1022) * 2 ^ 52 + n * 2 ^ (52 - n.log2) := by
  obtain ⟨k, hk, hunits⟩ := exists_unitsOfOne
  rw [hunits, magnitudeOfUnits_of_ne_zero hn, roundQuotient_of_le hbits, ← hk]

/-- A number below 2⁵³ has at most 53 bits. -/
theorem log2_le_of_lt {n : Nat} (hn : n ≠ 0) (hlt : n < 2 ^ 53) : n.log2 ≤ 52 :=
  Nat.lt_succ_iff.mp ((Nat.log2_lt hn).mpr hlt)

/-- A number below 2⁵³ has a lesser magnitude than every number above it. -/
theorem magnitudeOfUnits_lt {m n : Nat} (hm : m < 2 ^ 53) (h : m < n) :
    magnitudeOfUnits (m * unitsOfOne) 1 < magnitudeOfUnits (n * unitsOfOne) 1 := by
  have hn : n ≠ 0 := by omega
  have hlower := le_magnitudeOfUnits hn
  by_cases hzero : m = 0
  · rw [hzero, Nat.zero_mul, magnitudeOfUnits_zero]
    omega
  · have hbits := log2_le_of_lt hzero hm
    have hupper := mul_two_pow_lt hbits
    have hle : m.log2 ≤ n.log2 :=
      (Nat.le_log2 hn).mpr (Nat.le_trans (Nat.log2_self_le hzero) (Nat.le_of_lt h))
    rw [magnitudeOfUnits_of_lt hzero hbits]
    rcases Nat.eq_or_lt_of_le hle with heq | hlt
    · -- With the leading bit at one place the significands decide.
      rw [magnitudeOfUnits_of_lt hn (heq ▸ hbits), ← heq]
      exact Nat.add_lt_add_left (Nat.mul_lt_mul_of_pos_right h (Nat.two_pow_pos _)) _
    · have hscales : (m.log2 + 1 + 1022) * 2 ^ 52 ≤ (n.log2 + 1022) * 2 ^ 52 :=
        Nat.mul_le_mul_right _ (by omega)
      omega

/-- A number below 2⁵³ is far from the greatest float. -/
theorem magnitudeOfUnits_lt_limit {n : Nat} (hn : n < 2 ^ 53) :
    magnitudeOfUnits (n * unitsOfOne) 1 < magnitudeLimit - 1 := by
  have hlimit : magnitudeLimit = 2047 * 2 ^ 52 := rfl
  by_cases hzero : n = 0
  · rw [hzero, Nat.zero_mul, magnitudeOfUnits_zero, hlimit]
    omega
  · have hbits := log2_le_of_lt hzero hn
    have hupper := mul_two_pow_lt hbits
    have hscale : (n.log2 + 1022) * 2 ^ 52 ≤ (52 + 1022) * 2 ^ 52 :=
      Nat.mul_le_mul_right _ (by omega)
    rw [magnitudeOfUnits_of_lt hzero hbits, hlimit]
    omega

/-- The place of a natural number among the floats is its magnitude, cut at the greatest one. -/
theorem key_ofInt (n : Nat) :
    (ofInt n).key = (min (magnitudeOfUnits (n * unitsOfOne) 1) (magnitudeLimit - 1) : Nat) := by
  have hsign : ¬(n : Int) < 0 := by omega
  simp only [ofInt, key, hsign, decide_false, Bool.false_eq_true, if_false, Int.natAbs_natCast]

/-- A number below 2⁵³ comes before every number above it as a float too. -/
theorem key_ofInt_lt {m n : Nat} (hm : m < 2 ^ 53) (h : m < n) : (ofInt m).key < (ofInt n).key := by
  have hlt := magnitudeOfUnits_lt hm h
  have hlimit := magnitudeOfUnits_lt_limit hm
  rw [key_ofInt, key_ofInt]
  omega

/-- A number below 2⁵³ is told apart from every other number as a float too. -/
theorem key_ofInt_inj {m n : Nat} (hm : m < 2 ^ 53) : (ofInt m).key = (ofInt n).key ↔ m = n := by
  constructor
  · intro heq
    rcases Nat.lt_trichotomy m n with hlt | hmn | hlt
    · exact absurd heq (Int.ne_of_lt (key_ofInt_lt hm hlt))
    · exact hmn
    · exact absurd heq.symm (Int.ne_of_lt (key_ofInt_lt (Nat.lt_trans hlt hm) hlt))
  · rintro rfl
    rfl

end Binary64

end SchemaQuery
