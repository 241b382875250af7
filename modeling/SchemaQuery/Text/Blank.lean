/-!
# Blanks

The blank characters of Unicode, and the cuts of text that depend on them.
-/

namespace SchemaQuery.Text

/-- The Unicode property `White_Space`. -/
def isBlank (c : Char) : Bool :=
  let n := c.toNat
  (9 ≤ n && n ≤ 13) || n = 0x20 || n = 0x85 || n = 0xA0 || n = 0x1680 ||
    (0x2000 ≤ n && n ≤ 0x200A) || n = 0x2028 || n = 0x2029 || n = 0x202F || n = 0x205F || n = 0x3000

/-- A digit is no blank. -/
theorem isBlank_of_isDigit {c : Char} (h : c.isDigit = true) : isBlank c = false := by
  have hrange : 48 ≤ c.toNat ∧ c.toNat ≤ 57 := by
    simp only [Char.isDigit, Bool.and_eq_true, decide_eq_true_eq] at h
    exact h
  simp only [isBlank, Bool.or_eq_false_iff, Bool.and_eq_false_iff, decide_eq_false_iff_not]
  omega

/-- Drops leading blanks. -/
def trimLeft (cs : List Char) : List Char :=
  cs.dropWhile isBlank

/-- Drops leading and trailing blanks. -/
def trim (cs : List Char) : List Char :=
  ((trimLeft cs).reverse.dropWhile isBlank).reverse

/-- Drops the leading and trailing blanks of a string. -/
def trimmed (s : String) : String :=
  String.ofList (trim s.toList)

/-- Whether a string holds nothing but blanks. -/
def isEmptyOrBlank (s : String) : Bool :=
  s.toList.all isBlank

/-- Collects the rows of characters between blanks; `word` is the unfinished row, last character first. -/
def wordsFrom : List Char → (word : List Char) → List String
  | [], word => if word.isEmpty then [] else [String.ofList word.reverse]
  | c :: rest, word =>
    if isBlank c then
      if word.isEmpty then wordsFrom rest [] else String.ofList word.reverse :: wordsFrom rest []
    else wordsFrom rest (c :: word)

/-- The rows of characters between blanks. -/
def words (s : String) : List String :=
  wordsFrom s.toList []

end SchemaQuery.Text
