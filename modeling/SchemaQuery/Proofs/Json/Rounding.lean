import Mathlib.Algebra.Group.Nat.Defs
import Mathlib.Data.Int.Order.Basic
import SchemaQuery.Proofs.Json.Binary64

/-!
# Whole numbers are rounded to 53 digits

A float stands for the whole number of 53 binary digits nearest to the one it is made of. The places of two floats
are in the order of these numbers: a leading bit further to the left weighs more than all digits behind it, and a
significand that is rounded up to the next power of two is that power with the leading bit one place further.
Rounding keeps the order of whole numbers, never turns it around, and leaves alone all that are smaller than 2⁵³.
-/

namespace SchemaQuery

namespace Binary64

/-! ## The nearest number of 53 digits -/

/-- The natural number of 53 binary digits nearest to a natural number; a half goes to the even neighbour. -/
def nearestNat (n : Nat) : Nat :=
  roundQuotient n (2 ^ (n.log2 - 52)) * 2 ^ (n.log2 - 52)

/-- The whole number of 53 binary digits nearest to a whole number. -/
def nearestInt (n : Int) : Int :=
  n.sign * nearestNat n.natAbs

/-- Rounding keeps the order of quotients. -/
theorem roundQuotient_le_roundQuotient {a b : Nat} (h : a ≤ b) (c : Nat) :
    roundQuotient a c ≤ roundQuotient b c := by
  have hwhole : a / c ≤ b / c := Nat.div_le_div_right h
  rcases Nat.eq_or_lt_of_le hwhole with heq | hlt
  · have hrest : a % c ≤ b % c := by
      have ha := Nat.div_add_mod a c
      have hb := Nat.div_add_mod b c
      rw [heq] at ha
      omega
    simp only [roundQuotient, heq]
    split <;> split <;> omega
  · refine Nat.le_trans ?_ (div_le_roundQuotient b c)
    simp only [roundQuotient]
    split <;> omega

/-- A factor of both parts of a quotient does not change what it is rounded to. -/
theorem roundQuotient_mul_mul (a b : Nat) {c : Nat} (hc : 0 < c) :
    roundQuotient (a * c) (b * c) = roundQuotient a b := by
  have hrest : 2 * (a * c % (b * c)) = 2 * (a % b) * c := by
    rw [Nat.mul_mod_mul_right, Nat.mul_assoc]
  have hless : 2 * (a % b) * c < b * c ↔ 2 * (a % b) < b := Nat.mul_lt_mul_right hc
  have hhalf : 2 * (a % b) * c = b * c ↔ 2 * (a % b) = b := Nat.mul_left_inj (Nat.ne_of_gt hc)
  simp only [roundQuotient, Nat.mul_div_mul_right a b hc, hrest, hless, hhalf]

/-- A number of at most 53 digits is the nearest one. -/
theorem nearestNat_of_log2_le {n : Nat} (h : n.log2 ≤ 52) : nearestNat n = n := by
  have hexact : roundQuotient n 1 = n := by
    simpa using roundQuotient_mul n Nat.one_pos
  rw [nearestNat, Nat.sub_eq_zero_of_le h, Nat.pow_zero, Nat.mul_one, hexact]

/-- A number up to 2⁵³ is the nearest one. -/
theorem nearestNat_of_le {n : Nat} (h : n ≤ 2 ^ 53) : nearestNat n = n := by
  rcases Nat.eq_or_lt_of_le h with rfl | hlt
  · decide
  · by_cases hn : n = 0
    · rw [hn]
      exact nearestNat_of_log2_le (by decide)
    · exact nearestNat_of_log2_le (log2_le_of_lt hn hlt)

/-- Zero is rounded to zero. -/
theorem nearestNat_zero : nearestNat 0 = 0 :=
  nearestNat_of_le (Nat.zero_le _)

/-- The significand, moved to its place, is the nearest number of 53 digits. -/
theorem significand_mul {n : Nat} (k : Nat) :
    roundQuotient (n * 2 ^ (52 + k)) (2 ^ (n.log2 + k)) * 2 ^ n.log2 = nearestNat n * 2 ^ 52 := by
  rcases Nat.le_total n.log2 52 with hle | hge
  · rw [roundQuotient_of_le hle, nearestNat_of_log2_le hle, Nat.mul_assoc, ← Nat.pow_add,
      Nat.sub_add_cancel hle]
  · have hbits : 2 ^ (n.log2 + k) = 2 ^ (n.log2 - 52) * 2 ^ (52 + k) := by
      rw [← Nat.pow_add]
      congr 1
      omega
    have hplace : 2 ^ n.log2 = 2 ^ (n.log2 - 52) * 2 ^ 52 := by
      rw [← Nat.pow_add, Nat.sub_add_cancel hge]
    rw [hbits, roundQuotient_mul_mul _ _ (Nat.two_pow_pos _), nearestNat, hplace, Nat.mul_assoc]

/-- The significand of a number with its leading bit at `e` has its leading bit at 52, or is the next power. -/
theorem roundQuotient_le {n e : Nat} (he : n < 2 ^ (e + 1)) (k : Nat) :
    roundQuotient (n * 2 ^ (52 + k)) (2 ^ (e + k)) ≤ 2 * 2 ^ 52 := by
  have hwhole : n * 2 ^ (52 + k) / 2 ^ (e + k) < 2 * 2 ^ 52 := by
    rw [Nat.div_lt_iff_lt_mul (Nat.two_pow_pos _)]
    calc n * 2 ^ (52 + k) < 2 ^ (e + 1) * 2 ^ (52 + k) := Nat.mul_lt_mul_of_pos_right he (Nat.two_pow_pos _)
      _ = 2 * 2 ^ 52 * 2 ^ (e + k) := by
        rw [← Nat.pow_add, ← Nat.pow_succ', ← Nat.pow_add]
        congr 1
        omega
  simp only [roundQuotient]
  split <;> omega

/-! ## The order of places -/

section Places

variable {p q r : Nat}

/-- A place that is not further to the left is below another exactly if the digits there are worth less. -/
theorem lt_add_iff_lt_mul_two_pow (hq' : q ≤ 2 * p) (hr : p ≤ r) (hp : 0 < p) (d : Nat) :
    q < d * p + r ↔ q < r * 2 ^ d := by
  match d with
  | 0 => simp
  | 1 => omega
  | d + 2 =>
    have hplaces : 2 * p ≤ (d + 2) * p := Nat.mul_le_mul_right p (Nat.le_add_left 2 d)
    have hdigits : r * 2 ^ 2 ≤ r * 2 ^ (d + 2) :=
      Nat.mul_le_mul_left r (Nat.pow_le_pow_right Nat.two_pos (Nat.le_add_left 2 d))
    omega

/-- A place further to the left is not below another, and neither are the digits there. -/
theorem add_lt_iff_mul_two_pow_lt (hq : p ≤ q) (hr' : r ≤ 2 * p) (d : Nat) :
    d * p + q < r ↔ q * 2 ^ d < r := by
  match d with
  | 0 => simp
  | d + 1 =>
    have hplaces : 1 * p ≤ (d + 1) * p := Nat.mul_le_mul_right p (Nat.le_add_left 1 d)
    have hdigits : q * 2 ^ 1 ≤ q * 2 ^ (d + 1) :=
      Nat.mul_le_mul_left q (Nat.pow_le_pow_right Nat.two_pos (Nat.le_add_left 1 d))
    omega

/-- Places are in the order of what the digits there are worth: `p` is the weight of a step to the left, and the
digits are worth at least one step and at most the next. -/
theorem place_lt_iff (hq : p ≤ q) (hq' : q ≤ 2 * p) (hr : p ≤ r) (hr' : r ≤ 2 * p) (hp : 0 < p) (e f : Nat) :
    e * p + q < f * p + r ↔ q * 2 ^ e < r * 2 ^ f := by
  rcases Nat.le_total e f with hle | hge
  · obtain ⟨d, rfl⟩ := Nat.exists_eq_add_of_le hle
    rw [Nat.add_mul, Nat.add_assoc, Nat.add_lt_add_iff_left, Nat.add_comm e d, Nat.pow_add, ← Nat.mul_assoc,
      Nat.mul_lt_mul_right (Nat.two_pow_pos e)]
    exact lt_add_iff_lt_mul_two_pow hq' hr hp d
  · obtain ⟨d, rfl⟩ := Nat.exists_eq_add_of_le hge
    rw [Nat.add_mul, Nat.add_assoc, Nat.add_lt_add_iff_left, Nat.add_comm f d, Nat.pow_add, ← Nat.mul_assoc,
      Nat.mul_lt_mul_right (Nat.two_pow_pos f)]
    exact add_lt_iff_mul_two_pow_lt hq hr' d

end Places

/-! ## The order of natural numbers -/

/-- The magnitude of a natural number tells the place of its leading bit and a significand of 53 digits, which
moved to this place is the nearest number. -/
theorem exists_significand {n : Nat} (hn : n ≠ 0) :
    ∃ q, 2 ^ 52 ≤ q ∧ q ≤ 2 * 2 ^ 52 ∧ nearestNat n * 2 ^ 52 = q * 2 ^ n.log2 ∧
      magnitudeOfUnits (n * unitsOfOne) 1 = (n.log2 + 1022) * 2 ^ 52 + q := by
  obtain ⟨k, hk, hunits⟩ := exists_unitsOfOne
  refine ⟨_, le_roundQuotient (Nat.log2_self_le hn) k, roundQuotient_le Nat.lt_log2_self k,
    (significand_mul k).symm, ?_⟩
  rw [hunits, magnitudeOfUnits_of_ne_zero hn, hk]

/-- Only zero is rounded to zero. -/
theorem nearestNat_pos {n : Nat} (hn : n ≠ 0) : 0 < nearestNat n := by
  obtain ⟨q, hq, -, hnearest, -⟩ := exists_significand hn
  have hplace : 0 < q * 2 ^ n.log2 := Nat.mul_pos (by omega) (Nat.two_pow_pos _)
  omega

/-- Magnitudes are in the order of the nearest numbers of 53 digits. -/
theorem magnitudeOfUnits_lt_iff (m n : Nat) :
    magnitudeOfUnits (m * unitsOfOne) 1 < magnitudeOfUnits (n * unitsOfOne) 1 ↔
      nearestNat m < nearestNat n := by
  have hzero : magnitudeOfUnits (0 * unitsOfOne) 1 = 0 := by rw [Nat.zero_mul, magnitudeOfUnits_zero]
  by_cases hn : n = 0
  · rw [hn, hzero, nearestNat_zero]
    exact iff_of_false (Nat.not_lt_zero _) (Nat.not_lt_zero _)
  · obtain ⟨r, hr, hr', hnearest, hmagnitude⟩ := exists_significand hn
    by_cases hm : m = 0
    · rw [hm, hzero, nearestNat_zero, hmagnitude]
      exact iff_of_true (by omega) (nearestNat_pos hn)
    · obtain ⟨q, hq, hq', hnearest', hmagnitude'⟩ := exists_significand hm
      rw [hmagnitude, hmagnitude', Nat.add_mul, Nat.add_mul, Nat.add_right_comm, Nat.add_right_comm _ _ r,
        Nat.add_lt_add_iff_right, place_lt_iff hq hq' hr hr' (Nat.two_pow_pos 52), ← hnearest, ← hnearest',
        Nat.mul_lt_mul_right (Nat.two_pow_pos 52)]

/-- The significand that is the next power of two, one place further. -/
theorem two_mul_mul_two_pow (e : Nat) : 2 * 2 ^ 52 * 2 ^ e = 2 ^ 52 * 2 ^ (e + 1) := by
  rw [Nat.mul_assoc, Nat.mul_left_comm, ← Nat.pow_succ']

/-- Rounding keeps the order of natural numbers. -/
theorem nearestNat_le_nearestNat {m n : Nat} (h : m ≤ n) : nearestNat m ≤ nearestNat n := by
  by_cases hm : m = 0
  · rw [hm]
    exact Nat.zero_le _
  · have hn : n ≠ 0 := by omega
    have hle : m.log2 ≤ n.log2 := (Nat.le_log2 hn).mpr (Nat.le_trans (Nat.log2_self_le hm) h)
    rcases Nat.eq_or_lt_of_le hle with heq | hlt
    · rw [nearestNat, nearestNat, heq]
      exact Nat.mul_le_mul_right _ (roundQuotient_le_roundQuotient h _)
    · -- The next power of two lies between the two.
      obtain ⟨q, -, hq, hnearest, -⟩ := exists_significand hm
      obtain ⟨r, hr, -, hnearest', -⟩ := exists_significand hn
      have hplaces : nearestNat m * 2 ^ 52 ≤ nearestNat n * 2 ^ 52 := by
        calc nearestNat m * 2 ^ 52 = q * 2 ^ m.log2 := hnearest
          _ ≤ 2 * 2 ^ 52 * 2 ^ m.log2 := Nat.mul_le_mul_right _ hq
          _ = 2 ^ 52 * 2 ^ (m.log2 + 1) := two_mul_mul_two_pow m.log2
          _ ≤ 2 ^ 52 * 2 ^ n.log2 := Nat.mul_le_mul_left _ (Nat.pow_le_pow_right Nat.two_pos hlt)
          _ ≤ r * 2 ^ n.log2 := Nat.mul_le_mul_right _ hr
          _ = nearestNat n * 2 ^ 52 := hnearest'.symm
      omega

/-! ## The order of whole numbers -/

/-- The place of a whole number among the floats is the magnitude of its size, with its sign. -/
theorem key_ofInt_eq {n : Int} (h : n.natAbs < 2 ^ 65) :
    (ofInt n).key = n.sign * magnitudeOfUnits (n.natAbs * unitsOfOne) 1 := by
  have hlimit : magnitudeOfUnits (n.natAbs * unitsOfOne) 1 ≤ magnitudeLimit - 1 := by
    have hmax : magnitudeLimit = 2047 * 2 ^ 52 := rfl
    by_cases hn : n.natAbs = 0
    · rw [hn, Nat.zero_mul, magnitudeOfUnits_zero]
      exact Nat.zero_le _
    · obtain ⟨q, -, hq, -, hmagnitude⟩ := exists_significand hn
      have hbits : n.natAbs.log2 < 65 := (Nat.log2_lt hn).mpr h
      rw [hmagnitude, hmax]
      omega
  simp only [key, ofInt, Nat.min_eq_left hlimit, decide_eq_true_eq]
  rcases Int.lt_trichotomy n 0 with hneg | rfl | hpos
  · rw [if_pos hneg, Int.sign_eq_neg_one_of_neg hneg, Int.neg_one_mul]
  · rw [if_neg (Int.lt_irrefl 0), Int.sign_zero, Int.zero_mul, Int.natAbs_zero, Nat.zero_mul,
      magnitudeOfUnits_zero]
    rfl
  · rw [if_neg (Int.not_lt.mpr (Int.le_of_lt hpos)), Int.sign_eq_one_of_pos hpos, Int.one_mul]

/-- Numbers with signs are in the same order when their sizes are. -/
theorem sign_mul_lt_iff {f g : Nat → Nat} (h : ∀ m n, f m < f n ↔ g m < g n) (hf : f 0 = 0)
    (hg : g 0 = 0) (a b : Int) :
    a.sign * f a.natAbs < b.sign * f b.natAbs ↔ a.sign * g a.natAbs < b.sign * g b.natAbs := by
  have ha := h 0 a.natAbs
  have hb := h 0 b.natAbs
  have hab := h a.natAbs b.natAbs
  have hba := h b.natAbs a.natAbs
  rw [hf, hg] at ha hb
  rcases Int.lt_trichotomy a 0 with hneg | rfl | hpos <;>
    rcases Int.lt_trichotomy b 0 with hneg' | rfl | hpos' <;>
    simp only [Int.sign_eq_neg_one_of_neg, Int.sign_eq_one_of_pos, Int.sign_zero, Int.neg_one_mul,
      Int.one_mul, Int.zero_mul, *] <;> omega

/-- Whole numbers of 64 bits are as floats in the order of the nearest numbers of 53 digits. -/
theorem key_ofInt_lt_key_ofInt_iff {m n : Int} (hm : m.natAbs < 2 ^ 65) (hn : n.natAbs < 2 ^ 65) :
    (ofInt m).key < (ofInt n).key ↔ nearestInt m < nearestInt n := by
  have hzero : magnitudeOfUnits (0 * unitsOfOne) 1 = 0 := by rw [Nat.zero_mul, magnitudeOfUnits_zero]
  rw [key_ofInt_eq hm, key_ofInt_eq hn]
  exact sign_mul_lt_iff (f := fun n => magnitudeOfUnits (n * unitsOfOne) 1) magnitudeOfUnits_lt_iff hzero
    nearestNat_zero m n

/-- Pairs of whole numbers that are less together compare alike. -/
theorem compare_eq_compare {a b c d : Int} (hless : a < b ↔ c < d) (hgreater : b < a ↔ d < c) :
    compare a b = compare c d := by
  rcases Int.lt_trichotomy c d with hlt | heq | hgt
  · rw [Int.compare_eq_lt.mpr hlt, Int.compare_eq_lt.mpr (hless.mpr hlt)]
  · rw [Int.compare_eq_eq.mpr heq, Int.compare_eq_eq]
    omega
  · rw [Int.compare_eq_gt.mpr hgt, Int.compare_eq_gt.mpr (hgreater.mpr hgt)]

/-- Whole numbers of 64 bits compare as floats like the nearest numbers of 53 digits. -/
theorem compare_key_ofInt {m n : Int} (hm : m.natAbs < 2 ^ 65) (hn : n.natAbs < 2 ^ 65) :
    compare (ofInt m).key (ofInt n).key = compare (nearestInt m) (nearestInt n) :=
  compare_eq_compare (key_ofInt_lt_key_ofInt_iff hm hn) (key_ofInt_lt_key_ofInt_iff hn hm)

/-- A whole number up to 2⁵³ in size is the nearest one. -/
theorem nearestInt_of_le {n : Int} (h : n.natAbs ≤ 2 ^ 53) : nearestInt n = n := by
  rw [nearestInt, nearestNat_of_le h, Int.sign_mul_natAbs]

/-- Rounding keeps the order of whole numbers. -/
theorem nearestInt_le_nearestInt {m n : Int} (h : m ≤ n) : nearestInt m ≤ nearestInt n := by
  have hmn : m.natAbs ≤ n.natAbs → nearestNat m.natAbs ≤ nearestNat n.natAbs := nearestNat_le_nearestNat
  have hnm : n.natAbs ≤ m.natAbs → nearestNat n.natAbs ≤ nearestNat m.natAbs := nearestNat_le_nearestNat
  rw [nearestInt, nearestInt]
  rcases Int.lt_trichotomy m 0 with hneg | rfl | hpos <;>
    rcases Int.lt_trichotomy n 0 with hneg' | rfl | hpos' <;>
    simp only [Int.sign_eq_neg_one_of_neg, Int.sign_eq_one_of_pos, Int.sign_zero, Int.neg_one_mul,
      Int.one_mul, Int.zero_mul, *] <;> omega

/-- Rounding tells whole numbers apart and keeps their order, if it does not make them one number. -/
theorem compare_nearestInt {m n : Int} (h : nearestInt m = nearestInt n → m = n) :
    compare (nearestInt m) (nearestInt n) = compare m n := by
  have hmn : m ≤ n → nearestInt m ≤ nearestInt n := nearestInt_le_nearestInt
  have hnm : n ≤ m → nearestInt n ≤ nearestInt m := nearestInt_le_nearestInt
  refine compare_eq_compare ?_ ?_ <;> omega

/-- A whole number below 2⁵³ in size is not rounded to the same number as another one. -/
theorem eq_of_nearestInt_eq {m n : Int} (hm : m.natAbs < 2 ^ 53) (h : nearestInt m = nearestInt n) : m = n := by
  have hupper : nearestInt (2 ^ 53) = 2 ^ 53 := nearestInt_of_le (by decide)
  have hlower : nearestInt (-2 ^ 53) = -2 ^ 53 := nearestInt_of_le (by decide)
  rw [nearestInt_of_le (Nat.le_of_lt hm)] at h
  by_cases hn : n.natAbs ≤ 2 ^ 53
  · rw [h, nearestInt_of_le hn]
  · -- Beyond 2⁵³ a number stays beyond it.
    rcases Int.le_total 0 n with hpos | hneg
    · have hle : nearestInt (2 ^ 53) ≤ nearestInt n := nearestInt_le_nearestInt (by omega)
      omega
    · have hle : nearestInt n ≤ nearestInt (-2 ^ 53) := nearestInt_le_nearestInt (by omega)
      omega

end Binary64

end SchemaQuery
