import Mathlib.Data.List.Basic
import Mathlib.Data.List.TakeDrop
import Mathlib.Data.List.TakeWhile
import SchemaQuery.Calendar.Instant
import SchemaQuery.Proofs.Calendar.Dates

/-!
# Instants and their text

An instant that is read, from a text or from a number of milliseconds, lies within its day, and a leap second is
the last of its minute. The text of such an instant is read as the instant cut to milliseconds as long as its year
has four digits; any other year is written with a sign, and such a text is not read at all.
-/

namespace SchemaQuery.Calendar

namespace Instant

/-! ## Digits -/

/-- Digits have a value when there is one at least and nothing else. -/
theorem number?_eq_some_iff {cs : List Char} {n : Nat} :
    number? cs = some n ↔ (cs ≠ [] ∧ ∀ c ∈ cs, c.isDigit = true) ∧
      cs.foldl (fun n c => n * 10 + (c.toNat - 48)) 0 = n := by
  simp [number?]

/-- A digit has its value. -/
theorem number?_digitChar {d : Nat} (h : d < 10) : number? [d.digitChar] = some d := by
  rw [number?_eq_some_iff]
  simp [Nat.isDigit_digitChar, h, Nat.toNat_digitChar_sub_48_of_lt_ten h]

/-- A digit behind digits makes ten times their value and its own. -/
theorem number?_append_digitChar {cs : List Char} {n d : Nat} (h : number? cs = some n) (hd : d < 10) :
    number? (cs ++ [d.digitChar]) = some (n * 10 + d) := by
  obtain ⟨⟨-, hdigits⟩, hvalue⟩ := number?_eq_some_iff.mp h
  refine number?_eq_some_iff.mpr ⟨⟨by simp, fun c hc => ?_⟩, ?_⟩
  · obtain hmem | rfl := by simpa using hc
    · exact hdigits c hmem
    · simpa [Nat.isDigit_digitChar] using hd
  · rw [List.foldl_append, hvalue, List.foldl_cons, List.foldl_nil, Nat.toNat_digitChar_sub_48_of_lt_ten hd]

/-- A zero behind digits makes ten times their value. -/
theorem number?_append_zeros {cs : List Char} {n : Nat} (h : number? cs = some n) (k : Nat) :
    number? (cs ++ List.replicate k '0') = some (n * 10 ^ k) := by
  induction k with
  | zero => simpa using h
  | succ k ih =>
    rw [List.replicate_succ', ← List.append_assoc, Nat.pow_succ, ← Nat.mul_assoc]
    exact number?_append_digitChar ih (by decide : 0 < 10)

/-- Digits have less than the power of ten of their number. -/
theorem lt_of_number? {cs : List Char} {n : Nat} (h : number? cs = some n) : n < 10 ^ cs.length := by
  have hfold (start : Nat) : ∀ cs : List Char, (∀ c ∈ cs, c.isDigit = true) →
      cs.foldl (fun n c => n * 10 + (c.toNat - 48)) start < (start + 1) * 10 ^ cs.length := by
    intro cs hcs
    induction cs generalizing start with
    | nil => simp
    | cons c rest ih =>
      have hdigit : c.toNat ≤ 57 := by
        have := hcs c List.mem_cons_self
        simp only [Char.isDigit, Bool.and_eq_true, decide_eq_true_eq] at this
        exact this.2
      have hrest := ih (start * 10 + (c.toNat - 48)) fun c hc => hcs c (List.mem_cons_of_mem _ hc)
      refine Nat.lt_of_lt_of_le hrest ?_
      rw [List.length_cons, Nat.pow_succ', ← Nat.mul_assoc]
      exact Nat.mul_le_mul_right _ (by omega)
  obtain ⟨⟨-, hdigits⟩, rfl⟩ := number?_eq_some_iff.mp h
  simpa using hfold 0 cs hdigits

/-- One place less is what stands before the last digit. -/
theorem padded_succ {width : Nat} (hwidth : 0 < width) (n : Nat) :
    padded (width + 1) n = padded width (n / 10) ++ [(n % 10).digitChar] := by
  rw [padded, padded, Nat.toDigits_eq_if (by decide)]
  by_cases hn : n < 10
  · rw [if_pos hn, Nat.div_eq_of_lt hn, Nat.mod_eq_of_lt hn, Nat.toDigits_zero]
    obtain ⟨k, rfl⟩ := Nat.exists_eq_succ_of_ne_zero (Nat.pos_iff_ne_zero.mp hwidth)
    simp [List.replicate_succ']
  · simp [hn]

/-- So many places hold every number below the power of ten, and it is read from them. -/
theorem number?_padded {width n : Nat} (hwidth : 0 < width) (h : n < 10 ^ width) :
    (padded width n).length = width ∧ number? (padded width n) = some n := by
  induction width, hwidth using Nat.le_induction generalizing n with
  | base =>
    have hpadded : padded 1 n = [n.digitChar] := by
      rw [padded, Nat.toDigits_of_lt_base (by simpa using h)]
      rfl
    exact ⟨by rw [hpadded]; rfl, by rw [hpadded]; exact number?_digitChar (by simpa using h)⟩
  | succ width hwidth ih =>
    obtain ⟨hlength, hnumber⟩ := ih (n := n / 10) (by rw [Nat.pow_succ] at h; omega)
    rw [padded_succ hwidth]
    refine ⟨by rw [List.length_append, hlength]; rfl, ?_⟩
    rw [number?_append_digitChar hnumber (Nat.mod_lt _ (by decide)), Nat.mul_comm, Nat.div_add_mod]

/-! ## Instants that are read -/

/-- Whether an instant lies within its day, and a leap second is the last of its minute. -/
structure WithinDay (t : Instant) : Prop where
  second_lt : t.second < secondsPerDay
  nanosecond_lt : t.nanosecond < 2 * nanosPerSecond
  leap : nanosPerSecond ≤ t.nanosecond → t.second % 60 = 59

/-- The instant of a number of milliseconds lies within its day. -/
theorem withinDay_of_ofMillis? {millis : Int} {t : Instant} (h : ofMillis? millis = some t) : t.WithinDay := by
  unfold ofMillis? at h
  dsimp only at h
  split at h
  · obtain rfl := Option.some.inj h
    constructor <;> simp only [secondsPerDay, nanosPerSecond] <;> omega
  · cases h

/-- The start of a day lies within it. -/
theorem withinDay_of_ofDate? {d : Date} {t : Instant} (h : ofDate? d = some t) : t.WithinDay := by
  unfold ofDate? at h
  split at h
  · obtain rfl := Option.some.inj h
    constructor <;> simp [secondsPerDay, nanosPerSecond]
  · cases h

/-- A date without a time is its year, its month and its day, and nothing behind them. -/
theorem exists_of_ofDateText? {cs : List Char} {t : Instant} (h : ofDateText? cs = some t) :
    ∃ year month day afterYear afterMonth, year? cs = some (year, '-' :: afterYear) ∧
      upToTwoDigits? afterYear = some (month, '-' :: afterMonth) ∧ upToTwoDigits? afterMonth = some (day, []) ∧
      ofDate? ⟨year, month, day⟩ = some t := by
  obtain ⟨⟨year, afterYear⟩, hyear, h⟩ := Option.bind_eq_some_iff.mp h
  dsimp only at h
  split at h
  · obtain ⟨⟨month, afterMonth⟩, hmonth, h⟩ := Option.bind_eq_some_iff.mp h
    dsimp only at h
    split at h
    · obtain ⟨⟨day, afterDay⟩, hday, h⟩ := Option.bind_eq_some_iff.mp h
      dsimp only at h
      split at h
      · next hnil =>
        subst hnil
        exact ⟨year, month, day, _, _, hyear, hmonth, hday, h⟩
      · cases h
    · cases h
  · cases h

/-- A date without a time is the start of its day. -/
theorem withinDay_of_ofDateText? {cs : List Char} {t : Instant} (h : ofDateText? cs = some t) : t.WithinDay := by
  obtain ⟨_, _, _, _, _, -, -, -, hdate⟩ := exists_of_ofDateText? h
  exact withinDay_of_ofDate? hdate

/-- A fraction is less than a second. -/
theorem lt_of_fraction? {cs rest : List Char} {n : Nat} (h : fraction? cs = some (n, rest)) :
    n < nanosPerSecond := by
  unfold fraction? at h
  split at h
  · next digits =>
    rw [List.span_eq_takeWhile_dropWhile] at h
    obtain ⟨m, hm, hn⟩ := Option.bind_eq_some_iff.mp h
    have hlt := lt_of_number? hm
    rw [List.length_append, List.length_replicate, Nat.add_sub_cancel' (List.length_take_le ..)] at hlt
    split at hn
    · cases hn
    · obtain ⟨rfl, -⟩ := Prod.mk.inj (Option.some.inj hn)
      exact hlt
  · obtain ⟨rfl, -⟩ := Prod.mk.inj (Option.some.inj h)
    decide

/-- An offset is a number of minutes. -/
theorem offset?_minutes {cs : List Char} {seconds : Int} (h : offset? cs = some seconds) : seconds % 60 = 0 := by
  unfold offset? at h
  split at h
  · obtain rfl := Option.some.inj h
    rfl
  · obtain rfl := Option.some.inj h
    rfl
  · next sign h₁ h₂ m₁ m₂ =>
    have hsigned (negative : Bool) (hsome : ((number? [h₁, h₂]).bind fun hours =>
        (number? [m₁, m₂]).bind fun minutes =>
          if hours < 24 ∧ minutes < 60 then
            some (if negative then -((hours : Int) * 3600 + minutes * 60) else (hours : Int) * 3600 + minutes * 60)
          else none) = some seconds) : seconds % 60 = 0 := by
      obtain ⟨hours, -, hsome⟩ := Option.bind_eq_some_iff.mp hsome
      obtain ⟨minutes, -, hsome⟩ := Option.bind_eq_some_iff.mp hsome
      split at hsome
      · obtain rfl := Option.some.inj hsome
        split <;> omega
      · cases hsome
    dsimp only at h
    split at h
    · exact hsigned false h
    · split at h
      · exact hsigned true h
      · cases h
  · cases h

/-- A date with time and offset lies within its day. -/
theorem withinDay_of_ofTimestamp? {cs : List Char} {t : Instant} (h : ofTimestamp? cs = some t) : t.WithinDay := by
  unfold ofTimestamp? at h
  split at h
  · simp only [Option.bind_eq_bind, Option.bind_eq_some_iff] at h
    obtain ⟨year, -, month, -, day, -, hour, -, minute, -, second, -, ⟨nanosecond, rest⟩, hfraction, offset,
      hoffset, h⟩ := h
    have hnano := lt_of_fraction? hfraction
    have hminutes := offset?_minutes hoffset
    dsimp only at h
    split at h
    · next hvalid =>
      obtain ⟨-, -, hhour, hminute, hsecond⟩ := hvalid
      obtain rfl := Option.some.inj h
      split <;> constructor <;> simp only [minusSeconds, secondsPerDay, nanosPerSecond] at * <;> omega
    · cases h
  · cases h

/-- An instant that is read from a text lies within its day. -/
theorem withinDay_of_ofText? {text : String} {t : Instant} (h : ofText? text = some t) : t.WithinDay := by
  simp only [ofText?] at h
  split at h
  · next found hfound =>
    obtain rfl := Option.some.inj h
    exact withinDay_of_ofTimestamp? hfound
  · exact withinDay_of_ofDateText? h

/-! ## Years of four digits -/

/-- The instant cut to milliseconds. -/
def cut (t : Instant) : Instant :=
  { t with nanosecond := t.nanosecond / 1000000 * 1000000 }

/-- The year of an instant. -/
def year (t : Instant) : Int :=
  (Date.ofDays t.days).year

/-- An instant is written as it is when it is cut. -/
theorem toText_cut (t : Instant) : t.cut.toText = t.toText := by
  have hleap : t.nanosecond / 1000000 * 1000000 / nanosPerSecond = t.nanosecond / nanosPerSecond := by
    unfold nanosPerSecond
    omega
  have hmillis : t.nanosecond / 1000000 * 1000000 % nanosPerSecond / 1000000 =
      t.nanosecond % nanosPerSecond / 1000000 := by
    unfold nanosPerSecond
    omega
  simp only [toText, toChars, cut, hleap, hmillis]

/-- A number below a hundred is written with two digits. -/
theorem exists_padded_two {n : Nat} (h : n < 10 ^ 2) : ∃ a b, padded 2 n = [a, b] ∧ number? [a, b] = some n := by
  obtain ⟨hlength, hnumber⟩ := number?_padded (by decide) h
  obtain ⟨a, b, hpadded⟩ := List.length_eq_two.mp hlength
  exact ⟨a, b, hpadded, hpadded ▸ hnumber⟩

/-- A number below ten thousand is written with four digits. -/
theorem exists_padded_four {n : Nat} (h : n < 10 ^ 4) :
    ∃ a b c d, padded 4 n = [a, b, c, d] ∧ number? [a, b, c, d] = some n := by
  obtain ⟨hlength, hnumber⟩ := number?_padded (by decide) h
  obtain ⟨a, b, c, d, hpadded⟩ := List.length_eq_four.mp hlength
  exact ⟨a, b, c, d, hpadded, hpadded ▸ hnumber⟩

/-- The milliseconds that are written are read. -/
theorem fraction?_padded {millis : Nat} (h : millis < 10 ^ 3) :
    fraction? ('.' :: (padded 3 millis ++ ['Z'])) = some (millis * 1000000, ['Z']) := by
  obtain ⟨hlength, hnumber⟩ := number?_padded (by decide) h
  have hdigits := (number?_eq_some_iff.mp hnumber).1.2
  have htake : (padded 3 millis ++ ['Z']).takeWhile Char.isDigit = padded 3 millis := by
    rw [List.takeWhile_append_of_pos hdigits]
    simp
  have hdrop : (padded 3 millis ++ ['Z']).dropWhile Char.isDigit = ['Z'] := by
    rw [List.dropWhile_append_of_pos hdigits]
    rfl
  have hcounted : (padded 3 millis).take 9 = padded 3 millis := List.take_of_length_le (by omega)
  have hsome : padded 3 millis ≠ [] := List.ne_nil_of_length_pos (by omega)
  simp only [fraction?, List.span_eq_takeWhile_dropWhile, htake, hdrop, hcounted, hlength,
    number?_append_zeros hnumber, Option.bind_some, if_neg hsome]
  rfl

/-- The text of an instant whose year has four digits, digit by digit. -/
theorem exists_toChars {t : Instant} (ht : t.WithinDay) (hyear : 0 ≤ t.year ∧ t.year ≤ 9999) :
    ∃ y₁ y₂ y₃ y₄ m₁ m₂ d₁ d₂ h₁ h₂ i₁ i₂ s₁ s₂,
      t.toChars = y₁ :: y₂ :: y₃ :: y₄ :: '-' :: m₁ :: m₂ :: '-' :: d₁ :: d₂ :: 'T' :: h₁ :: h₂ :: ':' ::
        i₁ :: i₂ :: ':' :: s₁ :: s₂ :: '.' :: (padded 3 (t.nanosecond % nanosPerSecond / 1000000) ++ ['Z']) ∧
      number? [y₁, y₂, y₃, y₄] = some t.year.toNat ∧
      number? [m₁, m₂] = some (Date.ofDays t.days).month ∧ number? [d₁, d₂] = some (Date.ofDays t.days).day ∧
      number? [h₁, h₂] = some (t.second / 3600) ∧ number? [i₁, i₂] = some (t.second / 60 % 60) ∧
      number? [s₁, s₂] = some (t.second % 60 + t.nanosecond / nanosPerSecond) := by
  obtain ⟨hsecond, hnano, -⟩ := ht
  simp only [secondsPerDay, nanosPerSecond] at hsecond hnano
  obtain ⟨-, hmonth, -, hday⟩ := Date.lt_of_isValid (Date.isValid_ofDays t.days)
  obtain ⟨y₁, y₂, y₃, y₄, hyears, hyear'⟩ := exists_padded_four (n := t.year.toNat) (by omega)
  obtain ⟨m₁, m₂, hmonths, hmonth'⟩ := exists_padded_two (n := (Date.ofDays t.days).month) (by omega)
  obtain ⟨d₁, d₂, hdays, hday'⟩ := exists_padded_two (n := (Date.ofDays t.days).day) (by omega)
  obtain ⟨h₁, h₂, hhours, hhour⟩ := exists_padded_two (n := t.second / 3600) (by omega)
  obtain ⟨i₁, i₂, hminutes, hminute⟩ := exists_padded_two (n := t.second / 60 % 60) (by omega)
  obtain ⟨s₁, s₂, hseconds, hsecond'⟩ :=
    exists_padded_two (n := t.second % 60 + t.nanosecond / nanosPerSecond) (by unfold nanosPerSecond; omega)
  refine ⟨y₁, y₂, y₃, y₄, m₁, m₂, d₁, d₂, h₁, h₂, i₁, i₂, s₁, s₂, ?_, hyear', hmonth', hday', hhour, hminute, hsecond'⟩
  rw [year] at hyear hyears
  simp only [toChars, yearChars, if_pos hyear, hyears, hmonths, hdays, hhours, hminutes, hseconds, List.cons_append,
    List.nil_append]

/-- The time of day is made of its hour, minute and second; a leap second is second 60. -/
theorem minusSeconds_clock {t : Instant} (ht : t.WithinDay) :
    (if t.second % 60 + t.nanosecond / nanosPerSecond = 60 then
        (⟨t.days, t.second / 3600 * 3600 + t.second / 60 % 60 * 60 + 59,
          t.nanosecond % nanosPerSecond / 1000000 * 1000000 + nanosPerSecond⟩ : Instant)
      else
        ⟨t.days, t.second / 3600 * 3600 + t.second / 60 % 60 * 60 + (t.second % 60 + t.nanosecond / nanosPerSecond),
          t.nanosecond % nanosPerSecond / 1000000 * 1000000⟩).minusSeconds 0 = t.cut := by
  obtain ⟨hsecond, hnano, hleap⟩ := ht
  unfold nanosPerSecond minusSeconds cut secondsPerDay at *
  by_cases hlast : 1000000000 ≤ t.nanosecond
  · have hminute := hleap hlast
    rw [if_pos (by omega)]
    simp only [mk.injEq]
    omega
  · rw [if_neg (by omega)]
    simp only [mk.injEq]
    omega

/-- The text of an instant whose year has four digits is read as the instant cut to milliseconds. -/
theorem ofTimestamp?_toChars {t : Instant} (ht : t.WithinDay) (hyear : 0 ≤ t.year ∧ t.year ≤ 9999) :
    ofTimestamp? t.toChars = some t.cut := by
  obtain ⟨y₁, y₂, y₃, y₄, m₁, m₂, d₁, d₂, h₁, h₂, i₁, i₂, s₁, s₂, hchars, hyears, hmonths, hdays, hhours, hminutes,
    hseconds⟩ := exists_toChars ht hyear
  have hmillis : t.nanosecond % nanosPerSecond / 1000000 < 10 ^ 3 := by
    unfold nanosPerSecond
    omega
  have hoffset : offset? ['Z'] = some 0 := rfl
  have hdate : (⟨(t.year.toNat : Int), (Date.ofDays t.days).month, (Date.ofDays t.days).day⟩ : Date) =
      Date.ofDays t.days := by
    rw [Int.toNat_of_nonneg hyear.1]
    rfl
  have hclock : t.second / 3600 < 24 ∧ t.second / 60 % 60 < 60 ∧
      t.second % 60 + t.nanosecond / nanosPerSecond ≤ 60 := by
    obtain ⟨hsecond, hnano, -⟩ := ht
    unfold secondsPerDay nanosPerSecond at *
    omega
  rw [hchars]
  simp only [ofTimestamp?, hyears, hmonths, hdays, hhours, hminutes, hseconds, fraction?_padded hmillis, hoffset, hdate,
    Date.toDays_ofDays, Option.bind_eq_bind, Option.bind_some]
  rw [if_pos ⟨Or.inl trivial, Date.isValid_ofDays t.days, hclock⟩]
  exact congrArg some (minusSeconds_clock ht)

/-! ## Other years -/

/-- Every character of a number with places is a digit. -/
theorem isDigit_of_mem_padded {width n : Nat} {c : Char} (h : c ∈ padded width n) : c.isDigit = true := by
  obtain hzero | hmem := List.mem_append.mp h
  · rw [List.eq_of_mem_replicate hzero]
    rfl
  · exact Nat.isDigit_of_mem_toDigits (by decide) (by decide) hmem

/-- No character of an instant's text is blank. -/
theorem isBlank_of_mem_toChars {t : Instant} {c : Char} (h : c ∈ t.toChars) : Text.isBlank c = false := by
  have hpadded {width n : Nat} (hmem : c ∈ padded width n) : Text.isBlank c = false :=
    Text.isBlank_of_isDigit (isDigit_of_mem_padded hmem)
  have hyear {year : Int} (hmem : c ∈ yearChars year) : Text.isBlank c = false := by
    unfold yearChars at hmem
    split at hmem
    · exact hpadded hmem
    · obtain rfl | hmem := List.mem_cons.mp hmem
      · split <;> rfl
      · exact hpadded hmem
  simp only [toChars, List.mem_append, List.mem_cons, List.not_mem_nil, or_false, or_assoc] at h
  obtain h | rfl | h | rfl | h | rfl | h | rfl | h | rfl | h | rfl | h | rfl := h
  · exact hyear h
  all_goals first | rfl | exact hpadded h

/-- A text without blanks is left as it is. -/
theorem trim_of_forall {cs : List Char} (h : ∀ c ∈ cs, Text.isBlank c = false) : Text.trim cs = cs := by
  have hkept {cs : List Char} (h : ∀ c ∈ cs, Text.isBlank c = false) : cs.dropWhile Text.isBlank = cs := by
    cases cs with
    | nil => rfl
    | cons c rest => rw [List.dropWhile_cons_of_neg (by simp [h c List.mem_cons_self])]
  rw [Text.trim, Text.trimLeft, hkept h, hkept fun c hc => h c (List.mem_reverse.mp hc), List.reverse_reverse]

/-- A text that begins with a sign is no date with time and offset. -/
theorem ofTimestamp?_of_sign {sign : Char} (h : sign.isDigit = false) (rest : List Char) :
    ofTimestamp? (sign :: rest) = none := by
  have hnumber (y₂ y₃ y₄ : Char) : number? [sign, y₂, y₃, y₄] = none := by simp [number?, h]
  unfold ofTimestamp?
  split
  · next heq =>
    obtain ⟨rfl, -⟩ := List.cons.inj heq
    rw [hnumber]
    rfl
  · rfl

/-- What comes behind dropped characters is still there. -/
theorem mem_dropWhile {test : Char → Bool} {cs : List Char} {c : Char} (h : c ∈ cs) (hc : test c = false) :
    c ∈ cs.dropWhile test := by
  rw [← List.takeWhile_append_dropWhile (p := test) (l := cs)] at h
  refine (List.mem_append.mp h).resolve_left fun hmem => ?_
  simp [List.mem_takeWhile_imp hmem] at hc

/-- What is no digit comes behind the digits that are read first. -/
theorem mem_drop_digits {cs : List Char} {c : Char} (h : c ∈ cs) (hc : c.isDigit = false) (n : Nat) :
    c ∈ cs.drop ((cs.take n).takeWhile Char.isDigit).length := by
  obtain ⟨rest, hrest⟩ := (List.takeWhile_prefix Char.isDigit (l := cs.take n)).trans (List.take_prefix n cs)
  generalize hdigits : (cs.take n).takeWhile Char.isDigit = digits at *
  subst hrest
  rw [List.drop_left]
  refine (List.mem_append.mp h).resolve_left fun hmem => ?_
  rw [← hdigits] at hmem
  simp [List.mem_takeWhile_imp hmem] at hc

/-- The letter between date and time comes behind the year. -/
theorem mem_of_year? {cs rest : List Char} {year : Int} (h : year? cs = some (year, rest)) (hmem : 'T' ∈ cs) :
    'T' ∈ rest := by
  have htrimmed : 'T' ∈ Text.trimLeft cs := mem_dropWhile hmem (by decide)
  have hsigned {digits : List Char} (hdigits : 'T' ∈ digits) {read : Option Int} {signed : Int → Int}
      (hyear : read.map (fun n => (signed n, (digits.span Char.isDigit).2)) = some (year, rest)) : 'T' ∈ rest := by
    rw [List.span_eq_takeWhile_dropWhile] at hyear
    obtain ⟨n, -, hn⟩ := Option.map_eq_some_iff.mp hyear
    obtain ⟨-, rfl⟩ := Prod.mk.inj hn
    exact mem_dropWhile hdigits (by decide)
  unfold year? at h
  split at h
  · next digits heq =>
    rw [heq] at htrimmed
    exact hsigned (by simpa using htrimmed) h
  · next digits heq =>
    rw [heq] at htrimmed
    exact hsigned (by simpa using htrimmed) h
  · obtain ⟨n, -, hn⟩ := Option.map_eq_some_iff.mp h
    obtain ⟨-, rfl⟩ := Prod.mk.inj hn
    exact mem_drop_digits htrimmed (by decide) 4

/-- It comes behind the month, and behind the day. -/
theorem mem_of_upToTwoDigits? {cs rest : List Char} {n : Nat} (h : upToTwoDigits? cs = some (n, rest))
    (hmem : 'T' ∈ cs) : 'T' ∈ rest := by
  obtain ⟨m, -, hm⟩ := Option.map_eq_some_iff.mp h
  obtain ⟨-, rfl⟩ := Prod.mk.inj hm
  exact mem_drop_digits (mem_dropWhile hmem (by decide)) (by decide) 2

/-- A text with a time is no date without one. -/
theorem ofDateText?_of_mem {cs : List Char} (h : 'T' ∈ cs) : ofDateText? cs = none := by
  refine Option.eq_none_iff_forall_ne_some.mpr fun t ht => ?_
  obtain ⟨_, _, _, afterYear, afterMonth, hyear, hmonth, hday, -⟩ := exists_of_ofDateText? ht
  have hafterYear : 'T' ∈ afterYear := by simpa using mem_of_year? hyear h
  have hafterMonth : 'T' ∈ afterMonth := by simpa using mem_of_upToTwoDigits? hmonth hafterYear
  exact List.not_mem_nil (mem_of_upToTwoDigits? hday hafterMonth)

/-- The text of an instant is read when the year has four digits, as the instant cut to milliseconds. -/
theorem ofText?_toText {t : Instant} (ht : t.WithinDay) :
    ofText? t.toText = if 0 ≤ t.year ∧ t.year ≤ 9999 then some t.cut else none := by
  have htrim : Text.trim t.toText.toList = t.toChars := by
    rw [toText, String.toList_ofList]
    exact trim_of_forall fun c hc => isBlank_of_mem_toChars hc
  simp only [ofText?, htrim]
  by_cases hyear : 0 ≤ t.year ∧ t.year ≤ 9999
  · rw [if_pos hyear, ofTimestamp?_toChars ht hyear]
  · have hmem : 'T' ∈ t.toChars := by simp [toChars]
    have hsign : ∃ sign rest, t.toChars = sign :: rest ∧ sign.isDigit = false := by
      rw [year] at hyear
      simp only [toChars, yearChars, if_neg hyear, List.cons_append]
      exact ⟨_, _, rfl, by split <;> rfl⟩
    obtain ⟨sign, rest, hchars, hsign⟩ := hsign
    rw [if_neg hyear, ofDateText?_of_mem hmem, hchars, ofTimestamp?_of_sign hsign]

end Instant

end SchemaQuery.Calendar
