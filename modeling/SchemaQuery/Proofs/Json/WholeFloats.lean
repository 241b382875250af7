import SchemaQuery.Json.Number
import SchemaQuery.Proofs.Json.Rounding

/-!
# The whole number that a float stands for

The float that is made of a whole number counts as many units as the nearest number of 53 digits has, so it has no
fractional part, and cutting it gives this number. There is such a float as long as the nearest number is below 2¹⁰²⁴.
-/

namespace SchemaQuery

namespace Binary64

/-! ## Units -/

/-- The units of a float of which the significand is moved to its place, or is the next power of two there. -/
theorem units_eq {x : Binary64} {e q : Nat} (h : x.magnitude = e * 2 ^ 52 + q) (hq : 2 ^ 52 ≤ q)
    (hq' : q ≤ 2 * 2 ^ 52) : x.units = q * 2 ^ e := by
  have hsteps : stepsPerScale = 2 ^ 52 := rfl
  have hpow (k : Nat) : Nat.pow 2 k = 2 ^ k := rfl
  rcases Nat.eq_or_lt_of_le hq' with rfl | hlt
  · have hscale : x.scale = e + 1 := by
      rw [scale, h, hsteps, ← Nat.add_mul, Nat.mul_div_cancel _ (Nat.two_pow_pos 52)]
      omega
    have hsignificand : x.significand = 2 ^ 52 := by
      rw [significand, hscale, h, hsteps]
      omega
    rw [units, hsignificand, hscale, hpow, two_mul_mul_two_pow]
  · have hscale : x.scale = e := by
      rw [scale, h, hsteps]
      omega
    have hsignificand : x.significand = q := by
      rw [significand, hscale, h, hsteps]
      omega
    rw [units, hsignificand, hscale, hpow]

variable {x : Binary64} {n : Nat}

/-- A float with the magnitude of a natural number counts the units of the nearest number of 53 digits. -/
theorem units_of_magnitude (h : x.magnitude = magnitudeOfUnits (n * unitsOfOne) 1) :
    x.units = nearestNat n * unitsOfOne := by
  by_cases hn : n = 0
  · rw [hn, Nat.zero_mul, magnitudeOfUnits_zero] at h
    rw [hn, nearestNat_zero, Nat.zero_mul, units, significand, h, Nat.zero_sub, Nat.zero_mul]
  · obtain ⟨k, hk, hunits⟩ := exists_unitsOfOne
    obtain ⟨q, hq, hq', hnearest, hmagnitude⟩ := exists_significand hn
    rw [hmagnitude, ← hk] at h
    calc x.units = q * 2 ^ (n.log2 + k) := units_eq h hq hq'
      _ = nearestNat n * 2 ^ 52 * 2 ^ k := by rw [hnearest, Nat.pow_add, Nat.mul_assoc]
      _ = nearestNat n * unitsOfOne := by rw [hunits, Nat.pow_add, Nat.mul_assoc]

/-- One has units. -/
theorem unitsOfOne_pos : 0 < unitsOfOne := by
  obtain ⟨k, -, hunits⟩ := exists_unitsOfOne
  rw [hunits]
  exact Nat.two_pow_pos _

/-- A float with the magnitude of a natural number has no fractional part. -/
theorem isWhole_of_magnitude (h : x.magnitude = magnitudeOfUnits (n * unitsOfOne) 1) : x.isWhole = true := by
  rw [isWhole, units_of_magnitude h, Nat.mul_mod_left]
  rfl

/-- A float with the magnitude of a natural number is cut to the nearest number of 53 digits, with its sign. -/
theorem truncate_of_magnitude (h : x.magnitude = magnitudeOfUnits (n * unitsOfOne) 1) :
    x.truncate = if x.negative then -(nearestNat n : Int) else nearestNat n := by
  rw [truncate, units_of_magnitude h, Nat.mul_div_cancel _ unitsOfOne_pos]

/-! ## The finite range -/

/-- A natural number has a float exactly if the nearest number of 53 digits is below 2¹⁰²⁴. -/
theorem magnitudeOfUnits_lt_limit_iff (n : Nat) :
    magnitudeOfUnits (n * unitsOfOne) 1 < magnitudeLimit ↔ nearestNat n < 2 ^ 1024 := by
  have hlimit : magnitudeLimit = (1024 + 1022) * 2 ^ 52 + 2 ^ 52 := rfl
  by_cases hn : n = 0
  · rw [hn, Nat.zero_mul, magnitudeOfUnits_zero, nearestNat_zero]
    refine iff_of_true (by decide) ?_
    generalize 1024 = e
    exact Nat.two_pow_pos e
  · obtain ⟨q, hq, hq', hnearest, hmagnitude⟩ := exists_significand hn
    rw [hmagnitude, hlimit, Nat.add_mul, Nat.add_mul, Nat.add_right_comm, Nat.add_right_comm _ _ (2 ^ 52),
      Nat.add_lt_add_iff_right, place_lt_iff hq hq' (Nat.le_refl _) (by omega) (Nat.two_pow_pos 52), ← hnearest,
      Nat.mul_comm (2 ^ 52), Nat.mul_lt_mul_right (Nat.two_pow_pos 52)]

/-- A natural number is beyond the finite range exactly if the nearest number of 53 digits is not below 2¹⁰²⁴. -/
theorem nearest?_eq_none_iff (negative : Bool) (m : Nat) :
    nearest? negative m 1 = none ↔ 2 ^ 1024 ≤ nearestNat m := by
  rw [nearest?, dite_eq_right_iff, ← Nat.not_lt, ← magnitudeOfUnits_lt_limit_iff]
  exact forall_congr' fun _ => iff_of_false nofun id

/-- The number nearest to a natural number has its magnitude. -/
theorem exists_nearest?_eq_some {m : Nat} (h : nearestNat m < 2 ^ 1024) (negative : Bool) :
    ∃ x, nearest? negative m 1 = some x ∧ x.negative = negative ∧
      x.magnitude = magnitudeOfUnits (m * unitsOfOne) 1 :=
  ⟨_, dif_pos ((magnitudeOfUnits_lt_limit_iff m).mpr h), rfl, rfl⟩

/-- The number nearest to zero is zero. -/
theorem nearest?_zero (negative : Bool) : nearest? negative 0 1 = some (.zero negative) := by
  have hzero : magnitudeOfUnits (0 * unitsOfOne) 1 = 0 := by rw [Nat.zero_mul, magnitudeOfUnits_zero]
  rw [nearest?, dif_pos (by rw [hzero]; decide)]
  simp only [hzero, zero]

/-! ## Sizes of rounded numbers -/

/-- A power of two is the nearest number. -/
theorem nearestNat_two_pow (e : Nat) : nearestNat (2 ^ e) = 2 ^ e := by
  have hplace : 2 ^ e = 2 ^ (e - (e - 52)) * 2 ^ (e - 52) := by
    rw [← Nat.pow_add]
    congr 1
    omega
  rw [nearestNat, Nat.log2_two_pow]
  conv_lhs => rw [hplace]
  rw [roundQuotient_mul _ (Nat.two_pow_pos _), ← hplace]

/-- Rounding does not go below a power of two. -/
theorem two_pow_le_nearestNat {n e : Nat} (h : 2 ^ e ≤ n) : 2 ^ e ≤ nearestNat n :=
  nearestNat_two_pow e ▸ nearestNat_le_nearestNat h

/-- Rounding that stays below a power of two stays below a greater one. -/
theorem nearestNat_lt_two_pow {n e f : Nat} (h : nearestNat n < 2 ^ e) (hle : e ≤ f) : nearestNat n < 2 ^ f :=
  Nat.lt_of_lt_of_le h (Nat.pow_le_pow_right Nat.two_pos hle)

/-- The size of a rounded whole number is its size, rounded. -/
theorem natAbs_nearestInt (n : Int) : (nearestInt n).natAbs = nearestNat n.natAbs := by
  by_cases hn : n = 0
  · rw [hn, nearestInt, Int.sign_zero, Int.zero_mul, Int.natAbs_zero, nearestNat_zero]
  · rw [nearestInt, Int.natAbs_mul, Int.natAbs_sign_of_ne_zero hn, Nat.one_mul, Int.natAbs_natCast]

end Binary64

end SchemaQuery
