import Mathlib.Data.String.Basic
import SchemaQuery.Proofs.Calendar.Dates
import SchemaQuery.Proofs.Calendar.Instants

/-!
# The order of time

Days are in the order of year, month and day, since every month begins where the one before it ends. The text of an
instant shows year, month, day and the parts of the time in this order, each with as many digits as any other of its
kind, so texts stand to each other as the instants do.
-/

namespace SchemaQuery.Calendar

namespace Date

/-! ## Dates -/

/-- Whether a date comes before another: by year, then by month, then by day. -/
def Before (d e : Date) : Prop :=
  d.year < e.year ∨ d.year = e.year ∧ (d.month < e.month ∨ d.month = e.month ∧ d.day < e.day)

/-- The first day of a month, of which the months are counted through from January of the year 0. -/
def monthStart (index : Int) : Int :=
  toDays ⟨index / 12, (index % 12).toNat + 1, 1⟩

/-- The number of days of a month, of which the months are counted through. -/
def monthLength (index : Int) : Nat :=
  daysInMonth (index / 12) ((index % 12).toNat + 1)

/-- A month begins where the one before it ends. -/
theorem monthStart_succ (index : Int) : monthStart (index + 1) = monthStart index + monthLength index := by
  obtain ⟨year, m, hm, rfl⟩ : ∃ year : Int, ∃ m : Nat, m < 12 ∧ index = 12 * year + m :=
    ⟨index / 12, (index % 12).toNat, by omega, by omega⟩
  have hyear : (12 * year + m) / 12 = year := by omega
  have hmonth : ((12 * year + m) % 12).toNat = m := by omega
  by_cases hlast : m = 11
  · subst hlast
    have hyearNext : (12 * year + (11 : Nat) + 1) / 12 = year + 1 := by omega
    have hmonthNext : ((12 * year + (11 : Nat) + 1) % 12).toNat = 0 := by omega
    rw [monthStart, monthStart, monthLength, hyear, hmonth, hyearNext, hmonthNext]
    simp only [toDays, daysInMonth]
    simp
    omega
  · have hyearNext : (12 * year + m + 1) / 12 = year := by omega
    have hmonthNext : ((12 * year + m + 1) % 12).toNat = m + 1 := by omega
    rw [monthStart, monthStart, monthLength, hyear, hmonth, hyearNext, hmonthNext]
    have hearlier : m < 11 := by omega
    simp only [toDays, daysInMonth, isLeapYear]
    interval_cases m
    all_goals
      simp
      omega

/-- Every month ends before a later one begins. -/
theorem monthStart_add_le {index later : Int} (h : index < later) :
    monthStart index + monthLength index ≤ monthStart later := by
  induction later, (Int.add_one_le_iff.mpr h) using Int.leInduction with
  | base => exact Int.le_of_eq (monthStart_succ index).symm
  | succ later hle ih =>
    rw [monthStart_succ later]
    have hearlier := ih (by omega)
    omega

/-- The number of a month of the calendar. -/
def monthIndex (d : Date) : Int :=
  12 * d.year + d.month - 1

/-- A date is so many days behind the first day of its month. -/
theorem toDays_eq_monthStart {d : Date} (hd : d.isValid = true) :
    d.toDays = monthStart d.monthIndex + d.day - 1 ∧ d.day ≤ monthLength d.monthIndex := by
  obtain ⟨year, month, day⟩ := d
  obtain ⟨hmonth, hmonth', -, -⟩ := lt_of_isValid hd
  simp only [isValid, Bool.and_eq_true, decide_eq_true_eq] at hd hmonth hmonth'
  have hindexYear : (12 * year + (month : Int) - 1) / 12 = year := by omega
  have hindexMonth : ((12 * year + (month : Int) - 1) % 12).toNat + 1 = month := by omega
  rw [monthStart, monthLength, monthIndex]
  simp only [hindexYear, hindexMonth]
  refine ⟨?_, hd.2⟩
  simp only [toDays]
  omega

/-- Dates that exist are in the order of their days. -/
theorem toDays_lt_of_before {d e : Date} (hd : d.isValid = true) (he : e.isValid = true) (h : d.Before e) :
    d.toDays < e.toDays := by
  obtain ⟨hdays, hlength⟩ := toDays_eq_monthStart hd
  obtain ⟨hdays', -⟩ := toDays_eq_monthStart he
  have hmonth := lt_of_isValid hd
  have hmonth' := lt_of_isValid he
  by_cases hindex : d.monthIndex = e.monthIndex
  · have hday : d.day < e.day := by
      simp only [monthIndex] at hindex
      rcases h with hyear | ⟨hyear, hmonth | ⟨-, hday⟩⟩ <;> omega
    rw [hdays, hdays', hindex]
    omega
  · have hlater : d.monthIndex < e.monthIndex := by
      simp only [monthIndex] at hindex ⊢
      rcases h with hyear | ⟨hyear, hmonth | ⟨hmonth, -⟩⟩ <;> omega
    have hstart := monthStart_add_le hlater
    omega

/-- Of two dates one is before the other, or they are the same. -/
theorem before_trichotomy (d e : Date) : d.Before e ∨ d = e ∨ e.Before d := by
  obtain ⟨year, month, day⟩ := d
  obtain ⟨year', month', day'⟩ := e
  simp only [Before, Date.mk.injEq]
  omega

/-- Dates that exist are before each other just when their days are. -/
theorem before_iff_toDays_lt {d e : Date} (hd : d.isValid = true) (he : e.isValid = true) :
    d.Before e ↔ d.toDays < e.toDays := by
  refine ⟨toDays_lt_of_before hd he, fun hlt => ?_⟩
  obtain hbefore | rfl | hafter := d.before_trichotomy e
  · exact hbefore
  · exact absurd hlt (Int.lt_irrefl _)
  · exact absurd hlt (Int.lt_asymm (toDays_lt_of_before he hd hafter))

/-- The dates of two numbers of days are before each other just when the numbers are in order. -/
theorem ofDays_before_iff (days later : Int) : (ofDays days).Before (ofDays later) ↔ days < later := by
  rw [before_iff_toDays_lt (isValid_ofDays days) (isValid_ofDays later), toDays_ofDays, toDays_ofDays]

/-- The days of the years 0 to 9999. -/
theorem year_ofDays_iff (days : Int) :
    0 ≤ (ofDays days).year ∧ (ofDays days).year ≤ 9999 ↔ -719528 ≤ days ∧ days ≤ 2932896 := by
  have hvalid := isValid_ofDays days
  have hfirst : (⟨0, 1, 1⟩ : Date).toDays = -719528 := by decide
  have hlast : (⟨9999, 12, 31⟩ : Date).toDays = 2932896 := by decide
  have hbefore := before_iff_toDays_lt hvalid (e := ⟨0, 1, 1⟩) (by decide)
  have hafter := before_iff_toDays_lt (d := ⟨9999, 12, 31⟩) (by decide) hvalid
  have hdate := lt_of_isValid hvalid
  rw [toDays_ofDays, hfirst] at hbefore
  rw [toDays_ofDays, hlast] at hafter
  unfold Before at hbefore hafter
  simp only at hbefore hafter
  omega

end Date

namespace Instant

/-! ## Rows of digits -/

/-- Rows of characters that are equally long are in the order of the rows, and then of what follows them. -/
theorem append_lt_append_iff {front other : List Char} (h : front.length = other.length) (back rest : List Char) :
    front ++ back < other ++ rest ↔ front < other ∨ front = other ∧ back < rest := by
  induction front generalizing other with
  | nil =>
    obtain rfl := List.length_eq_zero_iff.mp h.symm
    simp
  | cons c front ih =>
    obtain ⟨c', other, rfl⟩ := List.exists_cons_of_length_eq_add_one h.symm
    rw [List.cons_append, List.cons_append, List.cons_lt_cons_iff, List.cons_lt_cons_iff, ih (by simpa using h)]
    simp only [List.cons.injEq]
    tauto

/-- Digits are in the order of their values. -/
theorem digitChar_lt_iff {m n : Nat} (hm : m < 10) (hn : n < 10) : m.digitChar < n.digitChar ↔ m < n := by
  have hall : ∀ m < 10, ∀ n < 10, m.digitChar < n.digitChar ↔ m < n := by decide
  exact hall m hm n hn

/-- Numbers that are written with the same number of digits are written alike just when they are the same. -/
theorem padded_inj {width m n : Nat} (hwidth : 0 < width) (hm : m < 10 ^ width) (hn : n < 10 ^ width) :
    padded width m = padded width n ↔ m = n := by
  refine ⟨fun h => ?_, congrArg _⟩
  have hread := (number?_padded hwidth hm).2
  rw [h, (number?_padded hwidth hn).2] at hread
  exact (Option.some.inj hread).symm

/-- Numbers that are written with the same number of digits are in the order of their texts. -/
theorem padded_lt_iff {width m n : Nat} (hwidth : 0 < width) (hm : m < 10 ^ width) (hn : n < 10 ^ width) :
    padded width m < padded width n ↔ m < n := by
  induction width, hwidth using Nat.le_induction generalizing m n with
  | base =>
    have hpadded {k : Nat} (hk : k < 10) : padded 1 k = [k.digitChar] := by
      rw [padded, Nat.toDigits_of_lt_base hk]
      rfl
    rw [hpadded (by simpa using hm), hpadded (by simpa using hn), List.cons_lt_cons_iff,
      digitChar_lt_iff (by simpa using hm) (by simpa using hn)]
    simp
  | succ width hwidth ih =>
    have hm' : m / 10 < 10 ^ width := by rw [Nat.pow_succ] at hm; omega
    have hn' : n / 10 < 10 ^ width := by rw [Nat.pow_succ] at hn; omega
    have hlength : (padded width (m / 10)).length = (padded width (n / 10)).length := by
      rw [(number?_padded hwidth hm').1, (number?_padded hwidth hn').1]
    rw [padded_succ hwidth, padded_succ hwidth, append_lt_append_iff hlength, ih hm' hn', padded_inj hwidth hm' hn',
      List.cons_lt_cons_iff, digitChar_lt_iff (Nat.mod_lt _ (by decide)) (Nat.mod_lt _ (by decide))]
    simp
    omega

/-- Numbers in front are compared before what follows them. -/
theorem padded_append_lt_iff {width m n : Nat} (hwidth : 0 < width) (hm : m < 10 ^ width) (hn : n < 10 ^ width)
    (back rest : List Char) : padded width m ++ back < padded width n ++ rest ↔ m < n ∨ m = n ∧ back < rest := by
  have hlength : (padded width m).length = (padded width n).length := by
    rw [(number?_padded hwidth hm).1, (number?_padded hwidth hn).1]
  rw [append_lt_append_iff hlength, padded_lt_iff hwidth hm hn, padded_inj hwidth hm hn]

/-- Numbers in front with one character behind them are compared before what follows. -/
theorem padded_cons_lt_iff {width m n : Nat} (hwidth : 0 < width) (hm : m < 10 ^ width) (hn : n < 10 ^ width) (c : Char)
    (back rest : List Char) :
    padded width m ++ c :: back < padded width n ++ c :: rest ↔ m < n ∨ m = n ∧ back < rest := by
  rw [padded_append_lt_iff hwidth hm hn, List.cons_lt_cons_iff]
  simp

/-! ## Texts of instants -/

/-- The milliseconds since 1970. -/
def millis (t : Instant) : Int :=
  t.days * 86400000 + (t.second * 1000 + t.nanosecond / 1000000 : Nat)

/-- An instant with a year of four digits that is not within a leap second. -/
structure Plain (t : Instant) : Prop where
  year : 0 ≤ t.year ∧ t.year ≤ 9999
  second_lt : t.second < secondsPerDay
  nanosecond_lt : t.nanosecond < nanosPerSecond

/-- The bounds of such an instant in numbers. -/
theorem Plain.bounds {t : Instant} (h : t.Plain) : t.second < 86400 ∧ t.nanosecond < 1000000000 :=
  ⟨h.second_lt, h.nanosecond_lt⟩

/-- The time of an instant in its text. -/
def clockChars (t : Instant) : List Char :=
  padded 2 (t.second / 3600) ++ ':' :: (padded 2 (t.second / 60 % 60) ++
    ':' :: (padded 2 (t.second % 60 + t.nanosecond / nanosPerSecond) ++
      '.' :: (padded 3 (t.nanosecond % nanosPerSecond / 1000000) ++ ['Z'])))

/-- The text of an instant with a year of four digits is its date and then its time. -/
theorem toChars_eq {t : Instant} (hyear : 0 ≤ t.year ∧ t.year ≤ 9999) :
    t.toChars = padded 4 t.year.toNat ++ '-' :: (padded 2 (Date.ofDays t.days).month ++
      '-' :: (padded 2 (Date.ofDays t.days).day ++ 'T' :: t.clockChars)) := by
  have hchars : yearChars t.year = padded 4 t.year.toNat := if_pos hyear
  simp only [toChars, clockChars, ← hchars, List.append_assoc, List.cons_append]
  rfl

section Order

variable {t u : Instant}

/-- Times within days are in the order of their texts. -/
theorem clockChars_lt_iff (ht : t.Plain) (hu : u.Plain) : t.clockChars < u.clockChars ↔
    t.second * 1000 + t.nanosecond / 1000000 < u.second * 1000 + u.nanosecond / 1000000 := by
  obtain ⟨hsecond, hnano⟩ := ht.bounds
  obtain ⟨hsecond', hnano'⟩ := hu.bounds
  rw [clockChars, clockChars, Nat.div_eq_of_lt ht.nanosecond_lt, Nat.div_eq_of_lt hu.nanosecond_lt,
    Nat.mod_eq_of_lt ht.nanosecond_lt, Nat.mod_eq_of_lt hu.nanosecond_lt]
  rw [padded_cons_lt_iff (by decide) (by omega) (by omega), padded_cons_lt_iff (by decide) (by omega) (by omega),
    padded_cons_lt_iff (by decide) (by omega) (by omega), padded_append_lt_iff (by decide) (by omega) (by omega)]
  have hend : ¬['Z'] < ['Z'] := List.lt_irrefl _
  simp only [hend, and_false, or_false]
  omega

/-- Instants are in the order of their texts. -/
theorem toChars_lt_iff (ht : t.Plain) (hu : u.Plain) : t.toChars < u.toChars ↔ t.millis < u.millis := by
  have hdate := Date.lt_of_isValid (Date.isValid_ofDays t.days)
  have hdate' := Date.lt_of_isValid (Date.isValid_ofDays u.days)
  obtain ⟨hyear, hyearLast⟩ := ht.year
  obtain ⟨hyear', hyearLast'⟩ := hu.year
  rw [toChars_eq ht.year, toChars_eq hu.year, padded_cons_lt_iff (by decide) (by omega) (by omega),
    padded_cons_lt_iff (by decide) (by omega) (by omega), padded_cons_lt_iff (by decide) (by omega) (by omega),
    clockChars_lt_iff ht hu]
  have hbefore := Date.ofDays_before_iff t.days u.days
  have hafter := Date.ofDays_before_iff u.days t.days
  unfold Date.Before at hbefore hafter
  unfold year at *
  unfold millis
  obtain ⟨hsecond, hnano⟩ := ht.bounds
  obtain ⟨hsecond', hnano'⟩ := hu.bounds
  omega

/-- The texts of instants compare as the instants do. -/
theorem compare_toText (ht : t.Plain) (hu : u.Plain) : compare t.toText u.toText = compare t.millis u.millis := by
  have hless {t u : Instant} (ht : t.Plain) (hu : u.Plain) : t.toText < u.toText ↔ t.millis < u.millis := by
    rw [String.lt_iff_toList_lt, toText, toText, String.toList_ofList, String.toList_ofList, toChars_lt_iff ht hu]
  rcases lt_trichotomy t.millis u.millis with hlt | heq | hgt
  · rw [compare_lt_iff_lt.mpr hlt, compare_lt_iff_lt.mpr ((hless ht hu).mpr hlt)]
  · have hnot : ¬t.toText < u.toText := fun hlt => absurd ((hless ht hu).mp hlt) (by omega)
    have hnot' : ¬u.toText < t.toText := fun hlt => absurd ((hless hu ht).mp hlt) (by omega)
    rw [compare_eq_iff_eq.mpr heq, compare_eq_iff_eq.mpr (le_antisymm (not_lt.mp hnot') (not_lt.mp hnot))]
  · rw [compare_gt_iff_gt.mpr hgt, compare_gt_iff_gt.mpr ((hless hu ht).mpr hgt)]

end Order

/-! ## Milliseconds -/

/-- Whether a number of milliseconds since 1970 is an instant of the years 0 to 9999. -/
def HasFourDigitYear (m : Int) : Prop :=
  ∃ t ∈ ofMillis? m, 0 ≤ t.year ∧ t.year ≤ 9999

/-- The milliseconds of the years 0 to 9999. -/
theorem hasFourDigitYear_iff (m : Int) : HasFourDigitYear m ↔ -62167219200000 ≤ m ∧ m ≤ 253402300799999 := by
  have hyears := Date.year_ofDays_iff (m / 86400000)
  constructor
  · rintro ⟨t, ht, hyear⟩
    obtain ⟨-, hinstant⟩ := Option.ite_none_right_eq_some.mp ht
    obtain rfl := Option.some.inj hinstant
    have hdays := hyears.mp hyear
    omega
  · intro hm
    have hyear := hyears.mpr (by omega)
    have hrange : (Date.ofDays (m / 86400000)).inRange = true := by
      rw [Date.inRange, Bool.and_eq_true]
      exact ⟨decide_eq_true (by unfold Date.firstYear; omega), decide_eq_true (by unfold Date.lastYear; omega)⟩
    exact ⟨_, if_pos hrange, hyear⟩

/-- The instant of a number of milliseconds is that many away, and not within a leap second. -/
theorem plain_of_ofMillis? {m : Int} {t : Instant} (h : ofMillis? m = some t)
    (hyear : 0 ≤ t.year ∧ t.year ≤ 9999) : t.Plain ∧ t.millis = m := by
  obtain ⟨-, hinstant⟩ := Option.ite_none_right_eq_some.mp h
  obtain rfl := Option.some.inj hinstant
  refine ⟨⟨hyear, ?_, ?_⟩, ?_⟩
  · simp only [secondsPerDay]
    omega
  · simp only [nanosPerSecond]
    omega
  · simp only [millis]
    omega

end Instant

end SchemaQuery.Calendar
