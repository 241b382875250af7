import Mathlib.Data.List.Forall2
import Mathlib.Data.List.Infix
import SchemaQuery.Filter.Like

/-!
# What a `like` pattern fits

A pattern is read from left to right into pieces, each of which takes texts: any text, one character, or one
character that differs in case at most. It fits a text that can be cut into parts which the pieces take one after
another. The expression for a pattern is read back into the same pieces, since every character with a sense of its own
is escaped and no star is left that could belong to a dot before it. Whether pieces match is decided for every rest of
a text at once, from the last piece to the first: a piece for any text looks for a later rest, a piece for one
character at the next one.
-/

namespace SchemaQuery

/-! ## What a pattern means -/

/-- Whether a piece takes a part of a text. -/
def Regex.Piece.Takes : Piece → List Char → Prop
  | .anyText, _ => True
  | .anyChar, part => ∃ d, part = [d]
  | .char c, part => ∃ d, part = [d] ∧ Text.fold d = Text.fold c

/-- Whether a text can be cut into parts that pieces take one after another. -/
def Regex.Cuts (pieces : List Piece) (text : List Char) : Prop :=
  ∃ parts, pieces.Forall₂ Piece.Takes parts ∧ parts.flatten = text

/-- Whether the characters of a pattern are read as pieces. A backslash takes its special sense from the character
behind it, and stands for nothing at the end. -/
inductive Like.Reads : List Char → List Regex.Piece → Prop where
  | done : Reads [] []
  | anyText {rest : List Char} {pieces : List Regex.Piece} :
    Reads rest pieces → Reads ('%' :: rest) (.anyText :: pieces)
  | anyChar {rest : List Char} {pieces : List Regex.Piece} :
    Reads rest pieces → Reads ('_' :: rest) (.anyChar :: pieces)
  | escaped {rest : List Char} {pieces : List Regex.Piece} (c : Char) :
    Reads rest pieces → Reads ('\\' :: c :: rest) (.char c :: pieces)
  | trailing : Reads ['\\'] []
  | char {rest : List Char} {pieces : List Regex.Piece} {c : Char} :
    c ≠ '%' → c ≠ '_' → c ≠ '\\' → Reads rest pieces → Reads (c :: rest) (.char c :: pieces)

/-- Whether a text fits a pattern. -/
def Like.Fits (pattern text : List Char) : Prop :=
  ∃ pieces, Reads pattern pieces ∧ Regex.Cuts pieces text

/-- Whether the expression for a pattern is small enough to be built. -/
def Like.Small (pattern : List Char) : Prop :=
  ∀ pieces, Reads pattern pieces → Regex.size pieces ≤ Regex.sizeLimit

/-- The pattern that takes every character of a text for itself. -/
def Like.literally (text : List Char) : List Char :=
  text.flatMap fun c => ['\\', c]

/-! ## Reading the expression for a pattern -/

namespace Regex

/-- A character is read back from the expression that stands for it. -/
@[simp] theorem readParts_escape (c : Char) (rest : List Char) :
    readParts (escape c ++ rest) = (.char c :: ·) <$> readParts rest := by
  by_cases hmeta : isMeta c
  · simp [escape, hmeta, readParts]
  · have hnone : c ≠ '$' ∧ c ≠ '.' ∧ c ≠ '\\' := by
      refine ⟨?_, ?_, ?_⟩ <;> rintro rfl <;> exact hmeta rfl
    rw [escape, if_neg hmeta, List.singleton_append, readParts]
    · simp [hmeta]
    all_goals grind

/-- The expression that stands for a character does not begin with a star. -/
theorem escape_ne_star (c : Char) (rest tail : List Char) : escape c ++ rest ≠ '*' :: tail := by
  by_cases hmeta : isMeta c
  · simp [escape, hmeta]
  · rintro h
    obtain ⟨rfl, -⟩ : c = '*' ∧ rest = tail := by simpa [escape, hmeta] using h
    exact hmeta rfl

end Regex

namespace Like

open Regex (Piece readParts)

/-- What stands behind a dot for one character is no star. -/
theorem translate_ne_star (pattern tail : List Char) : translate pattern ++ ['$'] ≠ '*' :: tail := by
  fun_cases translate pattern with
  | case1 => simp
  | case2 => simp
  | case3 => simp
  | case4 c rest => simpa using Regex.escape_ne_star c (translate rest ++ ['$']) tail
  | case5 => simp
  | case6 c rest => simpa using Regex.escape_ne_star c (translate rest ++ ['$']) tail

/-- The expression for a pattern is read into the pieces of the pattern. -/
theorem Reads.readParts_translate {pattern : List Char} {pieces : List Piece} (h : Reads pattern pieces) :
    readParts (translate pattern ++ ['$']) = some pieces := by
  induction h with
  | done => rfl
  | anyText _ ih => simp [translate, readParts, ih]
  | @anyChar rest pieces _ ih =>
    have hdot : readParts ('.' :: (translate rest ++ ['$'])) =
        (Piece.anyChar :: ·) <$> readParts (translate rest ++ ['$']) :=
      readParts.eq_3 _ (translate_ne_star rest)
    simp [translate, hdot, ih]
  | escaped c _ ih => simp [translate, ih]
  | trailing => rfl
  | char hany hone hback _ ih =>
    rw [translate]
    · simp [ih]
    all_goals grind

/-- Every pattern is read. -/
theorem exists_reads (pattern : List Char) : ∃ pieces, Reads pattern pieces := by
  fun_induction translate pattern with
  | case1 => exact ⟨_, .done⟩
  | case2 rest ih =>
    obtain ⟨pieces, h⟩ := ih
    exact ⟨_, h.anyText⟩
  | case3 rest ih =>
    obtain ⟨pieces, h⟩ := ih
    exact ⟨_, h.anyChar⟩
  | case4 c rest ih =>
    obtain ⟨pieces, h⟩ := ih
    exact ⟨_, h.escaped c⟩
  | case5 => exact ⟨_, .trailing⟩
  | case6 c rest hany hone hescaped htrailing ih =>
    obtain ⟨pieces, h⟩ := ih
    have hback : c ≠ '\\' := by
      rintro rfl
      cases rest with
      | nil => exact htrailing rfl rfl
      | cons d rest => exact hescaped d rest rfl rfl
    exact ⟨_, h.char hany hone hback⟩

/-- A pattern is read in one way. -/
theorem Reads.unique {pattern : List Char} {pieces others : List Piece} (h : Reads pattern pieces)
    (hothers : Reads pattern others) : others = pieces :=
  Option.some.inj (hothers.readParts_translate.symm.trans h.readParts_translate)

/-- A pattern that escapes every character is read as these characters. -/
theorem reads_literally (text : List Char) : Reads (literally text) (text.map .char) := by
  induction text with
  | nil => exact .done
  | cons c text ih => exact ih.escaped c

end Like

/-! ## Cutting a text -/

namespace Regex

variable {pieces : List Piece} {text : List Char}

theorem cuts_nil : Cuts [] text ↔ text = [] := by
  constructor
  · rintro ⟨parts, hparts, rfl⟩
    cases hparts
    rfl
  · rintro rfl
    exact ⟨[], .nil, rfl⟩

/-- The first piece takes a beginning of the text, the others cut the rest. -/
theorem cuts_cons {piece : Piece} :
    Cuts (piece :: pieces) text ↔ ∃ part later, piece.Takes part ∧ part ++ later = text ∧ Cuts pieces later := by
  constructor
  · rintro ⟨parts, hparts, rfl⟩
    cases hparts with
    | @cons _ part _ parts hpart hparts => exact ⟨part, parts.flatten, hpart, rfl, parts, hparts, rfl⟩
  · rintro ⟨part, _, hpart, rfl, parts, hparts, rfl⟩
    exact ⟨part :: parts, .cons hpart hparts, rfl⟩

theorem cuts_anyText : Cuts (.anyText :: pieces) text ↔ ∃ later, later <:+ text ∧ Cuts pieces later := by
  rw [cuts_cons]
  constructor
  · rintro ⟨part, later, -, rfl, hlater⟩
    exact ⟨later, List.suffix_append part later, hlater⟩
  · rintro ⟨later, ⟨part, rfl⟩, hlater⟩
    exact ⟨part, later, trivial, rfl, hlater⟩

/-- A piece that takes single characters takes the first one off the text. -/
theorem cuts_one {piece : Piece} {asked : Char → Prop} (h : ∀ part, piece.Takes part ↔ ∃ d, part = [d] ∧ asked d) :
    Cuts (piece :: pieces) text ↔ ∃ d later, text = d :: later ∧ asked d ∧ Cuts pieces later := by
  rw [cuts_cons]
  constructor
  · rintro ⟨part, later, hpart, rfl, hlater⟩
    obtain ⟨d, rfl, hd⟩ := (h part).mp hpart
    exact ⟨d, later, rfl, hd, hlater⟩
  · rintro ⟨d, later, rfl, hd, hlater⟩
    exact ⟨[d], later, (h [d]).mpr ⟨d, rfl, hd⟩, rfl, hlater⟩

theorem cuts_char {c : Char} : Cuts (.char c :: pieces) text ↔
    ∃ d later, text = d :: later ∧ Text.fold d = Text.fold c ∧ Cuts pieces later :=
  cuts_one fun _ => Iff.rfl

/-- Pieces that are characters cut the texts that differ from these in case at most. -/
theorem cuts_map_char {chars : List Char} :
    Cuts (chars.map .char) text ↔ text.map Text.fold = chars.map Text.fold := by
  induction chars generalizing text with
  | nil => simpa using cuts_nil
  | cons c chars ih =>
    rw [List.map_cons, cuts_char]
    cases text with
    | nil => simp
    | cons d text => simp [ih]

/-! ## Matching -/

/-- Whether a list tells of every rest of a text, from the whole text to the empty one, whether it has a property. -/
def Tells (property : List Char → Prop) (fits : List Bool) (text : List Char) : Prop :=
  fits.Forall₂ (fun fit rest => fit = true ↔ property rest) text.tails

variable {property : List Char → Prop} {fits : List Bool}

theorem tells_nil : Tells property fits [] ↔ ∃ fit, fits = [fit] ∧ (fit = true ↔ property []) := by
  simp [Tells, List.forall₂_cons_right_iff, and_comm]

theorem tells_cons {c : Char} : Tells property fits (c :: text) ↔
    ∃ fit later, fits = fit :: later ∧ (fit = true ↔ property (c :: text)) ∧ Tells property later text := by
  simp only [Tells, List.tails_cons, List.forall₂_cons_right_iff]
  exact ⟨fun ⟨fit, later, hfit, hlater, h⟩ => ⟨fit, later, h, hfit, hlater⟩,
    fun ⟨fit, later, h, hfit, hlater⟩ => ⟨fit, later, hfit, hlater, h⟩⟩

/-- The first of the list tells of the whole text. -/
theorem Tells.exists_cons (h : Tells property fits text) :
    ∃ fit later, fits = fit :: later ∧ (fit = true ↔ property text) := by
  cases text with
  | nil =>
    obtain ⟨fit, rfl, hfit⟩ := tells_nil.1 h
    exact ⟨fit, [], rfl, hfit⟩
  | cons c text =>
    obtain ⟨fit, later, rfl, hfit, -⟩ := tells_cons.1 h
    exact ⟨fit, later, rfl, hfit⟩

theorem Tells.headD (h : Tells property fits text) : fits.headD false = true ↔ property text := by
  obtain ⟨fit, later, rfl, hfit⟩ := h.exists_cons
  exact hfit

theorem Tells.congr {other : List Char → Prop} (h : Tells property fits text)
    (hother : ∀ rest, property rest ↔ other rest) : Tells other fits text :=
  h.imp fun _ rest hrest => hrest.trans (hother rest)

/-- Only the last rest of a text is empty. -/
theorem tells_end (text : List Char) : Tells (· = []) (text.map (fun _ => false) ++ [true]) text := by
  induction text with
  | nil => exact tells_nil.2 ⟨true, rfl, by simp⟩
  | cons c text ih => exact tells_cons.2 ⟨false, _, rfl, by simp, ih⟩

/-- Looking for a later rest tells of every rest whether one behind it has the property. -/
theorem Tells.laterOn (h : Tells property fits text) :
    Tells (fun rest => ∃ later, later <:+ rest ∧ property later) (laterOn fits) text := by
  induction text generalizing fits with
  | nil =>
    obtain ⟨fit, rfl, hfit⟩ := tells_nil.1 h
    exact tells_nil.2 ⟨fit, by simp [Regex.laterOn], by simp [hfit]⟩
  | cons c text ih =>
    obtain ⟨fit, later, rfl, hfit, hlater⟩ := tells_cons.1 h
    refine tells_cons.2 ⟨_, _, rfl, ?_, ih hlater⟩
    rw [Bool.or_eq_true, hfit, (ih hlater).headD]
    simp only [List.suffix_cons_iff, or_and_right, exists_or, exists_eq_left]

/-- Looking behind a character tells of every rest whether it begins with one that is asked for and goes on with
one that has the property. -/
theorem Tells.behind (asked : Char → Bool) (h : Tells property fits text) :
    Tells (fun rest => ∃ d later, rest = d :: later ∧ asked d = true ∧ property later) (behind asked text fits)
      text := by
  induction text generalizing fits with
  | nil => exact tells_nil.2 ⟨false, by simp [Regex.behind], by simp⟩
  | cons c text ih =>
    obtain ⟨fit, later, rfl, -, hlater⟩ := tells_cons.1 h
    obtain ⟨next, rest, rfl, hnext⟩ := hlater.exists_cons
    refine tells_cons.2 ⟨asked c && next, _, rfl, ?_, ih hlater⟩
    simp [hnext]

/-- Two characters count as the same if folding makes them one. -/
theorem sameFold_iff {a b : Char} : Text.sameFold a b = true ↔ Text.fold b = Text.fold a := by
  grind [Text.sameFold]

/-- For every rest of a text, matching decides whether the pieces cut it. -/
theorem tells_matchRests (pieces : List Piece) (text : List Char) :
    Tells (Cuts pieces) (matchRests pieces text) text := by
  induction pieces with
  | nil => exact (tells_end text).congr fun rest => cuts_nil.symm
  | cons piece pieces ih =>
    cases piece with
    | anyText => exact ih.laterOn.congr fun rest => cuts_anyText.symm
    | anyChar => exact (ih.behind _).congr fun rest => (cuts_one fun part => by simp [Piece.Takes]).symm
    | char c => exact (ih.behind _).congr fun rest => (cuts_one fun part => by simp [Piece.Takes, sameFold_iff]).symm

/-- The parts of an expression match the texts that they cut. -/
theorem isMatch_iff : isMatch pieces text = true ↔ Cuts pieces text :=
  (tells_matchRests pieces text).headD

end Regex

/-- The expression for a pattern is built from its pieces unless it is too large. -/
theorem Like.Reads.build_expression {pattern : List Char} {pieces : List Regex.Piece} (h : Like.Reads pattern pieces) :
    Regex.build (Like.expression pattern) = if Regex.size pieces ≤ Regex.sizeLimit then some pieces else none := by
  simp [Regex.build, Like.expression, Regex.read, h.readParts_translate, Option.filter]

/-- A pattern that is too large fits nothing. -/
theorem likeMatches_eq_false {pattern : String} (hlarge : ¬ Like.Small pattern.toList) (text : String) :
    likeMatches text pattern = false := by
  simp only [Like.Small, not_forall] at hlarge
  obtain ⟨pieces, hread, hsize⟩ := hlarge
  simp [likeMatches, hread.build_expression, hsize]

/-- A pattern that is small enough is read as pieces in one way and fits the texts that can be cut into parts which
these take one after another. One that escapes every character of a string fits the texts that differ from the string
in case at most. -/
theorem likeMatches_iff_fits {pattern : String} (hsmall : Like.Small pattern.toList) (text : String) :
    (∃! pieces, Like.Reads pattern.toList pieces) ∧
      (likeMatches text pattern = true ↔ Like.Fits pattern.toList text.toList) ∧
      (∀ string : String, pattern.toList = Like.literally string.toList →
        (likeMatches text pattern = true ↔ text.toList.map Text.fold = string.toList.map Text.fold)) := by
  obtain ⟨pieces, hread⟩ := Like.exists_reads pattern.toList
  have hmatch : likeMatches text pattern = true ↔ Regex.Cuts pieces text.toList := by
    rw [← Regex.isMatch_iff]
    simp [likeMatches, hread.build_expression, hsmall pieces hread]
  refine ⟨⟨pieces, hread, fun other => hread.unique⟩, ?_, ?_⟩
  · rw [hmatch]
    constructor
    · intro hcuts
      exact ⟨pieces, hread, hcuts⟩
    · rintro ⟨other, hother, hcuts⟩
      rwa [← hread.unique hother]
  · intro string hpattern
    have hchars : pieces = string.toList.map .char := by
      rw [hpattern] at hread
      exact (Like.reads_literally string.toList).unique hread
    rw [hmatch, hchars, Regex.cuts_map_char]

/-- Letters are compared without case, an escaped wildcard is a character, a wildcard for one takes the end of a line
too, a dot is no wildcard, and a backslash at the end is dropped. -/
theorem likeMatches_mixed_pattern :
    Like.Small "a\\%_.%\\".toList ∧ likeMatches "A%\n.xyz" "a\\%_.%\\" = true := by
  have hread : Like.Reads "a\\%_.%\\".toList [.char 'a', .char '%', .anyChar, .char '.', .anyText] :=
    .char (by decide) (by decide) (by decide) <| .escaped '%' <| .anyChar <|
      .char (by decide) (by decide) (by decide) <| .anyText .trailing
  have hsmall : Like.Small "a\\%_.%\\".toList := by
    intro pieces h
    rw [hread.unique h]
    decide
  have hparts : [.char 'a', .char '%', .anyChar, .char '.', .anyText].Forall₂ Regex.Piece.Takes
      [['A'], ['%'], ['\n'], ['.'], ['x', 'y', 'z']] :=
    .cons ⟨'A', rfl, by decide⟩ <| .cons ⟨'%', rfl, rfl⟩ <| .cons ⟨'\n', rfl⟩ <| .cons ⟨'.', rfl, rfl⟩ <|
      .cons trivial .nil
  exact ⟨hsmall, (likeMatches_iff_fits hsmall _).2.1.2 ⟨_, hread, _, hparts, rfl⟩⟩

end SchemaQuery
