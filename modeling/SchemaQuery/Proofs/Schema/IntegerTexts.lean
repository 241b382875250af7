import Mathlib.Data.List.Induction
import Mathlib.Data.List.TakeDrop
import Mathlib.Data.List.TakeWhile
import SchemaQuery.Proofs.Json.WholeFloats
import SchemaQuery.Schema.Coercion

/-!
# Texts of whole numbers as numbers

A text that begins, behind blanks, with a whole number in decimal is read as a float, so it becomes the nearest number
of 53 binary digits: the whole number itself up to 2⁵³ in size, and zero when the nearest number is beyond the finite
floats. What follows the digits is of no account, as long as no digit comes before a character that numbers are not
made of. The text that an integer becomes as a string is such a text.
-/

namespace SchemaQuery

open Binary64

/-! ## Texts that begin with a whole number -/

/-- What it means that characters are the digits of a natural number. -/
structure IsDigits (digits : List Char) : Prop where
  ne_nil : digits ≠ []
  isDigit : ∀ c ∈ digits, c.isDigit = true

/-- What it means that characters write a whole number in decimal: digits, perhaps behind a sign. -/
inductive IsDecimal : List Char → Int → Prop where
  | plain {digits : List Char} (h : IsDigits digits) : IsDecimal digits (Nat.ofDigitChars 10 digits 0)
  | plus {digits : List Char} (h : IsDigits digits) : IsDecimal ('+' :: digits) (Nat.ofDigitChars 10 digits 0)
  | minus {digits : List Char} (h : IsDigits digits) : IsDecimal ('-' :: digits) (-(Nat.ofDigitChars 10 digits 0 : Int))

/-- Whether numbers are made of a character. -/
def Decimal.isPart (c : Char) : Bool :=
  c.isDigit || c = '+' || c = '-' || c = '.' || c = 'e' || c = 'E'

/-- What it means that a text begins, behind blanks, with a whole number in decimal: the characters of numbers that
follow hold no further digit. -/
structure BeginsWithInteger (text : String) (n : Int) : Prop where
  intro ::
  exists_parts : ∃ blanks decimal rest, text.toList = blanks ++ decimal ++ rest ∧
    (∀ c ∈ blanks, Text.isBlank c = true) ∧ IsDecimal decimal n ∧
    ∀ c ∈ rest.takeWhile Decimal.isPart, c.isDigit = false

/-! ## Reading -/

namespace Decimal

variable {digits rest : List Char} {negative : Bool}

/-- The value of digits. -/
theorem natOfDigits_eq (digits : List Char) : NumberLiteral.natOfDigits digits = Nat.ofDigitChars 10 digits 0 := by
  rw [NumberLiteral.natOfDigits, Nat.ofDigitChars_eq_foldl]
  congr 1
  funext n c
  rw [NumberLiteral.digitValue, Nat.mul_comm]
  rfl

/-- Digits are split off before characters that are none. -/
theorem spanDigits_append (hdigits : ∀ c ∈ digits, c.isDigit = true) (hrest : ∀ c ∈ rest, c.isDigit = false) :
    NumberLiteral.spanDigits (digits ++ rest) = (digits, rest) := by
  have hbehind : rest.takeWhile Char.isDigit = [] ∧ rest.dropWhile Char.isDigit = rest := by
    cases rest with
    | nil => exact ⟨rfl, rfl⟩
    | cons c rest => simp [hrest c List.mem_cons_self]
  rw [NumberLiteral.spanDigits, List.span_eq_takeWhile_dropWhile, List.takeWhile_append_of_pos hdigits,
    List.dropWhile_append_of_pos hdigits, hbehind.1, hbehind.2, List.append_nil]

/-- Characters without digits are no exponent. -/
theorem readExponent?_of_no_digit (hne : rest ≠ []) (hrest : ∀ c ∈ rest, c.isDigit = false) :
    NumberLiteral.readExponent? rest = none := by
  have hno {more : List Char} (hsub : ∀ c ∈ more, c ∈ rest) : ¬(more ≠ [] ∧ more.all Char.isDigit = true) := by
    rintro ⟨hmore, hall⟩
    obtain ⟨c, hc⟩ := List.exists_mem_of_ne_nil more hmore
    exact Bool.false_ne_true ((hrest c (hsub c hc)).symm.trans (List.all_eq_true.mp hall c hc))
  unfold NumberLiteral.readExponent?
  split
  · exact absurd rfl hne
  · split
    · split
      rename_i hsplit
      refine if_neg (hno fun c hc => List.mem_cons_of_mem _ ?_)
      split at hsplit <;> obtain ⟨-, rfl⟩ := Prod.mk.inj hsplit
      · exact List.mem_cons_of_mem _ hc
      · exact List.mem_cons_of_mem _ hc
      · exact hc
    · rfl

/-- Digits are read as their value, and so they are before a point that ends the text. With other characters behind
them that hold no digit they are no number. -/
theorem read?_of_splitSign {cs : List Char} (hsign : splitSign cs = (negative, digits ++ rest))
    (hdigits : IsDigits digits) (hrest : ∀ c ∈ rest, c.isDigit = false) :
    read? cs = if rest = [] ∨ rest = ['.'] then some (negative, ⟨Nat.ofDigitChars 10 digits 0, 0⟩) else none := by
  have hspan : NumberLiteral.spanDigits (digits ++ rest) = (digits, rest) := spanDigits_append hdigits.isDigit hrest
  simp only [read?, hsign, hspan]
  split
  · -- Behind a point there are no digits: either the text ends, or it goes on with what is no exponent.
    rename_i behind
    have hbehind : NumberLiteral.spanDigits ([] ++ behind) = ([], behind) :=
      spanDigits_append (fun c hc => absurd hc List.not_mem_nil) fun c hc => hrest c (List.mem_cons_of_mem _ hc)
    rw [← List.nil_append behind, hbehind, if_neg fun h => hdigits.ne_nil h.1]
    cases behind with
    | nil => simp [NumberLiteral.readExponent?, natOfDigits_eq]
    | cons c more =>
      rw [readExponent?_of_no_digit (List.cons_ne_nil c more) fun c hc => hrest c (List.mem_cons_of_mem _ hc)]
      simp
  · rename_i hpoint
    rw [if_neg fun h => hdigits.ne_nil h.1]
    cases rest with
    | nil => simp [NumberLiteral.readExponent?, natOfDigits_eq]
    | cons c more =>
      rw [readExponent?_of_no_digit (List.cons_ne_nil c more) hrest]
      have hc : c ≠ '.' := fun hc => hpoint more (by rw [hc])
      simp [hc]

/-- The beginnings of a text with one more character are the whole text and the beginnings without it. -/
theorem beginnings_append_singleton (cs : List Char) (c : Char) :
    beginnings (cs ++ [c]) = (cs ++ [c]) :: beginnings cs := by
  have hwhole : (cs ++ [c]).take (cs.length + 1) = cs ++ [c] := List.take_of_length_le (by simp)
  rw [beginnings, List.length_append, List.length_singleton, List.range_succ, List.reverse_append,
    List.reverse_singleton, List.singleton_append, List.map_cons, hwhole, beginnings]
  congr 1
  refine List.map_congr_left fun k hk => List.take_append_of_le_length ?_
  have hless : k < cs.length + 1 := List.mem_range.mp (List.mem_reverse.mp hk)
  omega

/-- A text is its own first beginning. -/
theorem exists_beginnings_eq_cons (cs : List Char) : ∃ shorter, beginnings cs = cs :: shorter := by
  rcases List.eq_nil_or_concat cs with rfl | ⟨front, c, rfl⟩
  · exact ⟨[], rfl⟩
  · exact ⟨_, List.concat_eq_append ▸ beginnings_append_singleton front c⟩

/-- A number at the beginning of a text is found, if every longer beginning is no number or the same number. -/
theorem findSome?_beginnings {cs : List Char} {number : Bool × Decimal} (hread : read? cs = some number)
    (more : List Char)
    (hmore : ∀ begun, begun <+: more → read? (cs ++ begun) = none ∨ read? (cs ++ begun) = some number) :
    (beginnings (cs ++ more)).findSome? read? = some number := by
  -- The longest beginning comes first, so a text that grows at its end is tried with its last character once more.
  induction more using List.reverseRecOn with
  | nil =>
    obtain ⟨shorter, hbeginnings⟩ := exists_beginnings_eq_cons cs
    rw [List.append_nil, hbeginnings, List.findSome?_cons, hread]
  | append_singleton more c ih =>
    rw [← List.append_assoc, beginnings_append_singleton, List.findSome?_cons, List.append_assoc]
    rcases hmore (more ++ [c]) (List.prefix_refl _) with hnone | hsome
    · rw [hnone]
      exact ih fun begun hbegun => hmore begun (hbegun.trans (List.prefix_append more [c]))
    · rw [hsome]

/-- A sign and digits at the beginning of a text are found. -/
theorem leading?_append {cs : List Char} (hparts : ∀ c ∈ cs, isPart c = true)
    (hsign : ∀ behind, splitSign (cs ++ behind) = (negative, digits ++ behind)) (hdigits : IsDigits digits)
    (hrest : ∀ c ∈ rest.takeWhile isPart, c.isDigit = false) :
    leading? (cs ++ rest) = some (negative, ⟨Nat.ofDigitChars 10 digits 0, 0⟩) := by
  have hread {begun : List Char} (hbegun : begun <+: rest.takeWhile isPart) :=
    read?_of_splitSign (hsign begun) hdigits fun c hc => hrest c (hbegun.subset hc)
  have hrun : (cs ++ rest).takeWhile isPart = cs ++ rest.takeWhile isPart := List.takeWhile_append_of_pos hparts
  refine (congrArg (fun run => (beginnings run).findSome? read?) hrun).trans
    (findSome?_beginnings ?_ _ fun begun hbegun => ?_)
  · rw [← List.append_nil cs, hread List.nil_prefix, if_pos (Or.inl rfl)]
  · rw [hread hbegun]
    split
    · exact Or.inr rfl
    · exact Or.inl rfl

/-- A digit is a part of numbers, and no blank. -/
theorem isPart_of_isDigit {c : Char} (h : c.isDigit = true) : isPart c = true ∧ Text.isBlank c = false :=
  ⟨by simp [isPart, h], Text.isBlank_of_isDigit h⟩

/-- Digits have no sign to split off. -/
theorem splitSign_digits (hdigits : IsDigits digits) (behind : List Char) :
    splitSign (digits ++ behind) = (false, digits ++ behind) := by
  obtain ⟨hne, hall⟩ := hdigits
  cases digits with
  | nil => exact absurd rfl hne
  | cons c more =>
    have hc : c.isDigit = true := hall c List.mem_cons_self
    unfold splitSign
    split
    · rename_i heq
      cases heq
      exact absurd hc (by decide)
    · rename_i heq
      cases heq
      exact absurd hc (by decide)
    · rfl

end Decimal

/-- A whole number in decimal is a sign, perhaps, and digits that tell its size. -/
theorem IsDecimal.exists_digits {cs : List Char} {n : Int} (h : IsDecimal cs n) : ∃ negative digits, IsDigits digits ∧
    (∀ c ∈ cs, Decimal.isPart c = true ∧ Text.isBlank c = false) ∧
    (∀ behind, Decimal.splitSign (cs ++ behind) = (negative, digits ++ behind)) ∧
    n = if negative then -(Nat.ofDigitChars 10 digits 0 : Int) else Nat.ofDigitChars 10 digits 0 := by
  have hsigned {sign : Char} {digits : List Char} (h : IsDigits digits)
      (hsign : Decimal.isPart sign = true ∧ Text.isBlank sign = false) :
      ∀ c ∈ sign :: digits, Decimal.isPart c = true ∧ Text.isBlank c = false := by
    intro c hc
    rcases List.mem_cons.mp hc with rfl | hmem
    · exact hsign
    · exact Decimal.isPart_of_isDigit (h.isDigit c hmem)
  cases h with
  | plain h =>
    exact ⟨false, _, h, fun c hc => Decimal.isPart_of_isDigit (h.isDigit c hc), Decimal.splitSign_digits h, rfl⟩
  | plus h => exact ⟨false, _, h, hsigned h (by decide), fun _ => rfl, rfl⟩
  | minus h => exact ⟨true, _, h, hsigned h (by decide), fun _ => rfl, rfl⟩

/-! ## Rounding -/

/-- A number of more than 62 · `k` decimal digits has more than 205 · `k` binary ones. -/
theorem Decimal.two_pow_le_of_lt_digitCount {m e k : Nat} (hk : 0 < k) (he : e ≤ 205 * k)
    (h : 62 * k < Decimal.digitCount m) : 2 ^ e ≤ m := by
  have hdigits : 10 ^ (62 * k) ≤ m := by
    refine Nat.le_of_not_lt fun hless => Nat.not_le.mpr h ?_
    exact (Nat.length_toDigits_le_iff (by decide) (by omega)).mpr hless
  calc 2 ^ e ≤ 2 ^ (205 * k) := Nat.pow_le_pow_right Nat.two_pos he
    _ = (2 ^ 205) ^ k := Nat.pow_mul ..
    _ ≤ (10 ^ 62) ^ k := Nat.pow_le_pow_left (by decide) k
    _ = 10 ^ (62 * k) := (Nat.pow_mul ..).symm
    _ ≤ m := hdigits

/-- Zero of either sign is the whole number zero. -/
theorem Binary64.toJson_zero (negative : Bool) : (Binary64.zero negative).toJson = .ofInt 0 := by
  have hunits : (Binary64.zero negative).units = 0 := by
    cases negative <;> rfl
  have htruncate : (Binary64.zero negative).truncate = 0 := by
    rw [truncate, hunits, Nat.zero_div]
    split <;> rfl
  rw [toJson, htruncate, isWhole, hunits, Nat.zero_mod]
  rfl

/-- The number nearest to a natural number in decimal. Numbers of more than 310 digits, which are not tried, have
none. -/
theorem Decimal.nearest?_ofNat (negative : Bool) (m : Nat) :
    (⟨m, 0⟩ : Decimal).nearest? negative = Binary64.nearest? negative m 1 := by
  have hpower : Nat.pow 10 (0 : Int).toNat = 1 ∧ Nat.pow 10 (-0 : Int).toNat = 1 := ⟨rfl, rfl⟩
  simp only [nearest?, hpower, Nat.mul_one]
  split
  · rename_i hzero
    have hm : m = 0 := by omega
    rw [hm, Binary64.nearest?_zero]
  · split
    · rename_i hlong
      rw [powerLimit] at hlong
      have hlarge : 2 ^ 1024 ≤ m := Decimal.two_pow_le_of_lt_digitCount (k := 5) (by decide) (by decide) (by omega)
      exact ((Binary64.nearest?_eq_none_iff negative m).mpr (two_pow_le_nearestNat hlarge)).symm
    · rfl

/-- The value of a number that is read, zero if there is none. -/
def Json.ofRead? : Option Binary64 → Json
  | some x => x.toJson
  | none => .ofInt 0

/-- The value that the text of a whole number is read as: that of the nearest float, zero if there is none. -/
def Json.readInteger (n : Int) : Json :=
  .ofRead? (Binary64.nearest? (decide (n < 0)) n.natAbs 1)

/-- A number that has the value of a whole number, be it kept as an integer or as a float. -/
inductive Json.HasValue : Json → Int → Prop where
  | int (n : Whole) : HasValue (.int n) n.val
  | float (x : Binary64) (h : x.isWhole = true) : HasValue (.float x) x.truncate

/-- What it means that a value is a whole number as the floats have it: it is the number itself up to 2⁵³ in size, the
nearest whole number of 53 binary digits as an integer below 2⁶³ in size, has the value of this number in the whole
range of floats, and is zero beyond it. -/
structure Json.IsRounding (value : Json) (n : Int) : Prop where
  exact_of_le : n.natAbs ≤ 2 ^ 53 → value = .ofInt n
  integer_of_lt : nearestNat n.natAbs < 2 ^ 63 → value = .ofInt (nearestInt n)
  hasValue_of_lt : nearestNat n.natAbs < 2 ^ 1024 → value.HasValue (nearestInt n)
  zero_of_le : 2 ^ 1024 ≤ nearestNat n.natAbs → value = .ofInt 0

/-- What is read of a text that begins with a whole number, behind blanks, is a sign and digits that tell the size. -/
theorem BeginsWithInteger.exists_leading? {text : String} {n : Int} (h : BeginsWithInteger text n) :
    ∃ negative size, Decimal.leading? (Text.trimLeft text.toList) = some (negative, ⟨size, 0⟩) ∧
      n = if negative then -(size : Int) else size := by
  obtain ⟨blanks, decimal, rest, htext, hblanks, hdecimal, hrest⟩ := h
  obtain ⟨negative, digits, hdigits, hparts, hsign, hn⟩ := hdecimal.exists_digits
  have hkept : (decimal ++ rest).dropWhile Text.isBlank = decimal ++ rest := by
    cases decimal with
    | nil => exact absurd (hsign []) (by simp [Decimal.splitSign, hdigits.ne_nil])
    | cons c more => rw [List.cons_append, List.dropWhile_cons_of_neg (by simp [(hparts c List.mem_cons_self).2])]
  refine ⟨negative, _, ?_, hn⟩
  rw [htext, List.append_assoc, Text.trimLeft, List.dropWhile_append_of_pos hblanks, hkept]
  exact Decimal.leading?_append (fun c hc => (hparts c hc).1) hsign hdigits hrest

/-- A text that begins with a whole number is read as this number. -/
theorem numberOfText_of_beginsWithInteger {text : String} {n : Int} (h : BeginsWithInteger text n) :
    numberOfText text = .readInteger n := by
  obtain ⟨negative, size, hleading, hn⟩ := h.exists_leading?
  have hread : numberOfText text = .ofRead? (Binary64.nearest? negative size 1) := by
    rw [← Decimal.nearest?_ofNat]
    simp only [numberOfText, hleading]
    split <;> rename_i heq <;> rw [heq, Json.ofRead?]
  by_cases hsize : size = 0
  · -- Zero with a sign is zero.
    have hzero : n = 0 := by
      rw [hn, hsize]
      cases negative <;> rfl
    rw [hread, hsize, hzero, Json.readInteger, Int.natAbs_zero, Binary64.nearest?_zero, Binary64.nearest?_zero,
      Json.ofRead?, Json.ofRead?, Binary64.toJson_zero, Binary64.toJson_zero]
  · have hnegative : decide (n < 0) = negative := by
      rw [hn]
      cases negative
      · simp
      · simp; omega
    have hnatAbs : n.natAbs = size := by
      rw [hn]
      cases negative <;> simp
    rw [hread, Json.readInteger, hnegative, hnatAbs]

/-- A whole number below 2⁶³ in size is an integer. -/
theorem Json.ofInt_hasValue {k : Int} (h : k.natAbs < 2 ^ 63) : (ofInt k).HasValue k := by
  have hrange : Whole.least ≤ k ∧ k ≤ Whole.greatest := by
    have hlower : -0x8000000000000000 ≤ k := by omega
    have hupper : k ≤ (0xFFFFFFFFFFFFFFFF : Nat) := by omega
    exact ⟨hlower, hupper⟩
  rw [ofInt, dif_pos hrange]
  exact .int ⟨k, hrange.1, hrange.2⟩

/-- A float without fractional part is an integer if it is below 2⁶³ in size. -/
theorem Binary64.toJson_of_isWhole {x : Binary64} (h : x.isWhole = true) :
    x.toJson = if x.truncate.natAbs < 2 ^ 63 then .ofInt x.truncate else .float x := by
  have hlimit : (x.truncate.natAbs : Int) < Whole.signedLimit ↔ x.truncate.natAbs < 2 ^ 63 := by
    rw [show Whole.signedLimit = ((2 ^ 63 : Nat) : Int) from rfl, Int.ofNat_lt]
  simp only [toJson, h, hlimit, true_and]

/-- A whole number is read as a float that is cut to the nearest number of 53 digits, if there is one. -/
theorem Json.exists_readInteger_eq {n : Int} (h : nearestNat n.natAbs < 2 ^ 1024) :
    ∃ x : Binary64, readInteger n = x.toJson ∧ x.isWhole = true ∧ x.truncate = nearestInt n := by
  obtain ⟨x, hnearest, hnegative, hmagnitude⟩ := Binary64.exists_nearest?_eq_some h (decide (n < 0))
  refine ⟨x, by rw [readInteger, hnearest, ofRead?], isWhole_of_magnitude hmagnitude, ?_⟩
  rw [truncate_of_magnitude hmagnitude, hnegative, nearestInt]
  rcases Int.lt_trichotomy n 0 with hneg | rfl | hpos
  · rw [decide_eq_true hneg, if_pos rfl, Int.sign_eq_neg_one_of_neg hneg, Int.neg_one_mul]
  · rfl
  · rw [decide_eq_false (by omega), if_neg Bool.false_ne_true, Int.sign_eq_one_of_pos hpos, Int.one_mul]

/-- The value that the text of a whole number is read as is the whole number as the floats have it. -/
theorem Json.isRounding_readInteger (n : Int) : (readInteger n).IsRounding n := by
  have hsize : (nearestInt n).natAbs = nearestNat n.natAbs := natAbs_nearestInt n
  have hinteger (h : nearestNat n.natAbs < 2 ^ 63) : readInteger n = .ofInt (nearestInt n) := by
    have hfinite : nearestNat n.natAbs < 2 ^ 1024 := nearestNat_lt_two_pow h (by decide)
    obtain ⟨x, hread, hwhole, htruncate⟩ := exists_readInteger_eq hfinite
    rw [hread, Binary64.toJson_of_isWhole hwhole, htruncate, hsize, if_pos h]
  refine ⟨fun h => ?_, hinteger, fun h => ?_, fun h => ?_⟩
  · have hsmall : nearestNat n.natAbs < 2 ^ 63 := by
      rw [nearestNat_of_le h]
      exact Nat.lt_of_le_of_lt h (by decide)
    rw [hinteger hsmall, nearestInt_of_le h]
  · obtain ⟨x, hread, hwhole, htruncate⟩ := exists_readInteger_eq h
    rw [hread, Binary64.toJson_of_isWhole hwhole, ← htruncate]
    split
    · rename_i hlt
      exact ofInt_hasValue hlt
    · exact .float x hwhole
  · rw [readInteger, (Binary64.nearest?_eq_none_iff _ _).mpr h, ofRead?]

/-- The text of a whole number is this number in decimal. -/
theorem isDecimal_toString (n : Int) : IsDecimal (toString n).toList n := by
  have hdigits (m : Nat) : IsDigits (Nat.toDigits 10 m) :=
    ⟨Nat.toDigits_ne_nil, fun _ hc => Nat.isDigit_of_mem_toDigits (by decide) (by decide) hc⟩
  cases n with
  | ofNat m =>
    have htext : (toString (Int.ofNat m)).toList = Nat.toDigits 10 m := Nat.toList_repr
    have hplain := IsDecimal.plain (hdigits m)
    rw [Nat.ofDigitChars_ten_toDigits] at hplain
    rw [htext]
    exact hplain
  | negSucc m =>
    have htext : (toString (Int.negSucc m)).toList = '-' :: Nat.toDigits 10 (m + 1) := by
      change (("-" : String) ++ (m + 1).repr).toList = _
      rw [String.toList_append, Nat.toList_repr]
      rfl
    have hminus := IsDecimal.minus (hdigits (m + 1))
    rw [Nat.ofDigitChars_ten_toDigits] at hminus
    rw [htext]
    exact hminus

/-! ## Coercion -/

namespace PropertyType

/-- An integer that is made a string and then a number again is what its text is read as. -/
theorem coerce?_coerce?_int (whole : Whole) :
    (string.coerce? (.int whole)).bind number.coerce? = some (.readInteger whole.val) := by
  have htext : BeginsWithInteger (Json.int whole).compact whole.val :=
    ⟨[], _, [], by simp [Json.compact, Json.print], by simp, isDecimal_toString _, by simp⟩
  exact congrArg some (numberOfText_of_beginsWithInteger htext)

/-- To every whole number belongs one value, the number as the floats have it. An integer that is made a string and
then a number again is this value, and so is every text that begins, behind blanks, with the number. -/
theorem coerce?_integer_text (n : Int) :
    ∃ value : Json, value.IsRounding n ∧
      (∀ whole : Whole, whole.val = n → (string.coerce? (.int whole)).bind number.coerce? = some value) ∧
      ∀ text, BeginsWithInteger text n → number.coerce? (.str text) = some value := by
  refine ⟨.readInteger n, Json.isRounding_readInteger n, ?_, fun text h => ?_⟩
  · rintro whole rfl
    exact coerce?_coerce?_int whole
  · exact congrArg some (numberOfText_of_beginsWithInteger h)

/-- 2⁵³, as an integer and at the beginning of a text with blanks and a unit, stays what it is. -/
theorem coerce?_integer_text_kilometres :
    (string.coerce? (.int ⟨9007199254740992, by decide, by decide⟩)).bind number.coerce? =
        some (.ofInt 9007199254740992) ∧
      number.coerce? (.str " 9007199254740992 km") = some (.ofInt 9007199254740992) := by
  obtain ⟨value, hrounding, hinteger, htext⟩ := coerce?_integer_text 9007199254740992
  have hvalue : value = .ofInt 9007199254740992 := hrounding.exact_of_le (by decide)
  have hbegins : BeginsWithInteger " 9007199254740992 km" 9007199254740992 :=
    ⟨[' '], "9007199254740992".toList, " km".toList, by decide, List.forall_mem_singleton.mpr (by decide),
      IsDecimal.plain ⟨by decide, List.all_eq_true.mp (by decide)⟩, nofun⟩
  exact ⟨hvalue ▸ hinteger _ rfl, hvalue ▸ htext _ hbegins⟩

/-- The next integer behind 2⁵³ comes back as 2⁵³. -/
theorem coerce?_integer_rounded :
    (string.coerce? (.int ⟨9007199254740993, by decide, by decide⟩)).bind number.coerce? =
        some (.int ⟨9007199254740992, by decide, by decide⟩) ∧
      (string.coerce? (.int ⟨9007199254740993, by decide, by decide⟩)).bind number.coerce? ≠
        some (.int ⟨9007199254740993, by decide, by decide⟩) := by
  have hvalue : Json.readInteger 9007199254740993 = .int ⟨9007199254740992, by decide, by decide⟩ :=
    (Json.isRounding_readInteger 9007199254740993).integer_of_lt (by decide)
  rw [coerce?_coerce?_int, hvalue]
  exact ⟨rfl, by simp⟩

end PropertyType

end SchemaQuery
