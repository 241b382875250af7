import Mathlib.Tactic.IntervalCases
import SchemaQuery.Calendar.Date

/-!
# Days and dates

The date of a day exists, and it is that day. A day of the cycle of 400 years lies in a century, in four years of
it, in a year of these and at a place in the year; centuries and spans of four years are equally long but for the
last day, which is the leap day at their end, so the places are found by divisions that keep that day back.
-/

namespace SchemaQuery.Calendar

namespace Date

/-- The number of days before a year of the cycle. -/
def daysBefore (yearOfCycle : Int) : Int :=
  365 * yearOfCycle + yearOfCycle / 4 - yearOfCycle / 100

/-- The date of a day of a year that is counted from March. -/
def ofMarch (year dayOfYear : Int) : Date :=
  let monthFromMarch := (5 * dayOfYear + 2) / 153
  let day := dayOfYear - (153 * monthFromMarch + 2) / 5 + 1
  let month := if monthFromMarch < 10 then monthFromMarch + 3 else monthFromMarch - 9
  ⟨if month ≤ 2 then year + 1 else year, month.toNat, day.toNat⟩

/-- The year of the cycle that a day of the cycle lies in. -/
def yearOfCycle (dayOfCycle : Int) : Int :=
  (dayOfCycle - dayOfCycle / 1460 + dayOfCycle / 36524 - dayOfCycle / 146096) / 365

/-- The date of a number of days is found in the year of the cycle. -/
theorem ofDays_eq (days : Int) :
    let dayOfCycle := (days + 719468) % 146097
    ofDays days = ofMarch (yearOfCycle dayOfCycle + (days + 719468) / 146097 * 400)
      (dayOfCycle - daysBefore (yearOfCycle dayOfCycle)) :=
  rfl

/-! ## Years of the cycle -/

/-- A day of the cycle by century, span of four years, year and place in the year. A year has a last day of its
own if it ends a span of four years, and the last of these in a century only if the century ends the cycle. -/
theorem exists_place {d : Int} (hlower : 0 ≤ d) (hupper : d < 146097) :
    ∃ century span year place : Int, (0 ≤ century ∧ century ≤ 3) ∧ (0 ≤ span ∧ span ≤ 24) ∧
      (0 ≤ year ∧ year ≤ 3) ∧ (0 ≤ place ∧ place ≤ 365) ∧
      d = 36524 * century + 1461 * span + 365 * year + place ∧
      (place = 365 → year = 3 ∧ (span = 24 → century = 3)) := by
  have hcentury : ∃ c e : Int, 0 ≤ c ∧ c ≤ 3 ∧ 0 ≤ e ∧ d = 36524 * c + e ∧ (e < 36524 ∨ c = 3 ∧ e = 36524) :=
    ⟨(d - d / 146096) / 36524, d - 36524 * ((d - d / 146096) / 36524), by omega⟩
  obtain ⟨c, e, hc, hc', he, rfl, hlast⟩ := hcentury
  have hyear : ∃ r n : Int, 0 ≤ r ∧ r ≤ 3 ∧ 0 ≤ n ∧ e % 1461 = 365 * r + n ∧ (n < 365 ∨ r = 3 ∧ n = 365) :=
    ⟨(e % 1461 - e % 1461 / 1460) / 365, e % 1461 - 365 * ((e % 1461 - e % 1461 / 1460) / 365), by omega⟩
  obtain ⟨r, n, hr, hr', hn, hplace, hday⟩ := hyear
  exact ⟨c, e / 1461, r, n, by omega⟩

/-- The year of the cycle that a place lies in. -/
theorem yearOfCycle_of_place {d century span year place : Int} (hcentury : 0 ≤ century ∧ century ≤ 3)
    (hspan : 0 ≤ span ∧ span ≤ 24) (hyear : 0 ≤ year ∧ year ≤ 3) (hplace : 0 ≤ place ∧ place ≤ 365)
    (hd : d = 36524 * century + 1461 * span + 365 * year + place)
    (hlast : place = 365 → year = 3 ∧ (span = 24 → century = 3)) :
    yearOfCycle d = 100 * century + 4 * span + year := by
  by_cases hend : d = 146096
  · -- The last day of the cycle counts as the first day of a fifth century, and is taken off again.
    have hplaces : century = 3 ∧ span = 24 ∧ year = 3 := by omega
    obtain ⟨rfl, rfl, rfl⟩ := hplaces
    subst hend
    rfl
  · have hcycle : d / 146096 = 0 := by omega
    have hcentury : d / 36524 = century := by omega
    -- A span of four years has one day more than four times 365; only its last days fall into the next piece.
    have hspan : d / 1460 = 25 * century + span ∨
        d / 1460 = 25 * century + span + 1 ∧ 1460 ≤ 24 * century + span + 365 * year + place := by omega
    rw [yearOfCycle, hcycle, hcentury]
    have hdays : d - d / 1460 + century = 365 * (100 * century + 4 * span + year) +
        (place + 25 * century + span - d / 1460) := by omega
    rw [Int.sub_zero, hdays]
    omega

/-- The place of a day in its year, and the leap day at the end of a year that is followed by a leap year. -/
theorem exists_dayOfYear {d : Int} (hlower : 0 ≤ d) (hupper : d < 146097) :
    0 ≤ yearOfCycle d ∧ yearOfCycle d ≤ 399 ∧ 0 ≤ d - daysBefore (yearOfCycle d) ∧
      d - daysBefore (yearOfCycle d) ≤ 365 ∧
      (d - daysBefore (yearOfCycle d) = 365 → ∀ cycle, isLeapYear (yearOfCycle d + cycle * 400 + 1) = true) := by
  obtain ⟨century, span, year, place, hcentury, hspan, hyear, hplace, hd, hlast⟩ := exists_place hlower hupper
  rw [yearOfCycle_of_place hcentury hspan hyear hplace hd hlast]
  have hbefore : daysBefore (100 * century + 4 * span + year) = 36524 * century + 1461 * span + 365 * year := by
    have hfour : (100 * century + 4 * span + year) / 4 = 25 * century + span := by omega
    have hhundred : (100 * century + 4 * span + year) / 100 = century := by omega
    rw [daysBefore, hfour, hhundred]
    omega
  have hdays : d - daysBefore (100 * century + 4 * span + year) = place := by omega
  rw [hdays]
  refine ⟨by omega, by omega, hplace.1, hplace.2, fun hleap cycle => ?_⟩
  obtain ⟨rfl, hcycle⟩ := hlast hleap
  simp only [isLeapYear, Bool.and_eq_true, Bool.or_eq_true, decide_eq_true_eq]
  omega

/-! ## Days of a year -/

/-- The month of a day of the year, counted from March. -/
theorem exists_monthFromMarch {dayOfYear : Int} (hlower : 0 ≤ dayOfYear) (hupper : dayOfYear ≤ 365) :
    ∃ m : Nat, m < 12 ∧ (5 * dayOfYear + 2) / 153 = m :=
  ⟨((5 * dayOfYear + 2) / 153).toNat, by omega⟩

/-- The date of a day of a year that is counted from March exists. -/
theorem isValid_ofMarch {year dayOfYear : Int} (hlower : 0 ≤ dayOfYear) (hupper : dayOfYear ≤ 365)
    (hleap : dayOfYear = 365 → isLeapYear (year + 1) = true) : (ofMarch year dayOfYear).isValid = true := by
  obtain ⟨m, hm, hmonth⟩ := exists_monthFromMarch hlower hupper
  simp only [ofMarch, hmonth, isValid, daysInMonth, Bool.and_eq_true, decide_eq_true_eq]
  by_cases hfebruary : m = 11
  · subst hfebruary
    by_cases hlast : dayOfYear = 365
    · simp [hlast, hleap hlast]
    · simp
      split <;> omega
  · have hearlier : m < 11 := by omega
    interval_cases m
    all_goals
      simp
      omega

/-- The date of a day of a year that is counted from March is that day. -/
theorem toDays_ofMarch {year dayOfYear : Int} (hlower : 0 ≤ dayOfYear) (hupper : dayOfYear ≤ 365) :
    (ofMarch year dayOfYear).toDays =
      year / 400 * 146097 + (daysBefore (year % 400) + dayOfYear) - 719468 := by
  obtain ⟨m, hm, hmonth⟩ := exists_monthFromMarch hlower hupper
  simp only [ofMarch, hmonth, toDays, daysBefore]
  interval_cases m
  all_goals
    simp
    omega

/-! ## Days -/

/-- The date of a number of days exists. -/
theorem isValid_ofDays (days : Int) : (ofDays days).isValid = true := by
  obtain ⟨-, -, hlower, hupper, hleap⟩ := exists_dayOfYear (d := (days + 719468) % 146097) (by omega) (by omega)
  rw [ofDays_eq]
  exact isValid_ofMarch hlower hupper fun hlast => hleap hlast _

/-- The date of a number of days is as many days away. -/
theorem toDays_ofDays (days : Int) : (ofDays days).toDays = days := by
  obtain ⟨hfirst, hlast, hlower, hupper, -⟩ :=
    exists_dayOfYear (d := (days + 719468) % 146097) (by omega) (by omega)
  rw [ofDays_eq, toDays_ofMarch hlower hupper]
  generalize hday : (days + 719468) % 146097 = dayOfCycle at *
  generalize yearOfCycle dayOfCycle = year at *
  have hcycle : (year + (days + 719468) / 146097 * 400) / 400 = (days + 719468) / 146097 := by omega
  have hyear : (year + (days + 719468) / 146097 * 400) % 400 = year := by omega
  rw [hcycle, hyear]
  omega

/-- The day of a date is two digits at most, and so is the month. -/
theorem lt_of_isValid {d : Date} (h : d.isValid = true) : 1 ≤ d.month ∧ d.month ≤ 12 ∧ 1 ≤ d.day ∧ d.day ≤ 31 := by
  simp only [isValid, Bool.and_eq_true, decide_eq_true_eq] at h
  have hdays : daysInMonth d.year d.month ≤ 31 := by
    unfold daysInMonth
    split
    · split <;> omega
    · split <;> omega
  omega

end Date

end SchemaQuery.Calendar
