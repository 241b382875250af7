import Mathlib.Data.List.Count
import SchemaQuery.Proofs.Sql.Fragment

/-!
# Scanning SQL for quoted identifiers

A reader of SQL knows one rule on quotes: an identifier stands between two of them, and a quote that is
written twice inside of it is a quote of the identifier. What is put together of single characters without
quotes and of quoted names, no name next to a dot or to another name, is taken apart by this rule into just
what it was put together of. A name shows itself to the reader as identifiers with dots between them.
-/

namespace SchemaQuery

namespace Sql

/-! ## The reader -/

/-- A part of SQL text: a character outside of identifiers, or an identifier without its quotes. -/
inductive Lexeme where
  | plain (c : Char)
  | quoted (identifier : String)
  deriving DecidableEq

/-- Where a reader of SQL text stands; what it has read of an identifier comes last character first. -/
inductive ScanMode where
  | outside
  | inside (read : List Char)
  /-- Behind a quote that ends the identifier, unless another one follows. -/
  | closing (read : List Char)

/-- The parts of a text. A text that ends inside of an identifier has none. -/
def scanFrom : ScanMode → List Char → Option (List Lexeme)
  | .outside, [] => some []
  | .outside, c :: rest =>
    if c = '"' then scanFrom (.inside []) rest else (scanFrom .outside rest).map (.plain c :: ·)
  | .inside _, [] => none
  | .inside read, c :: rest =>
    if c = '"' then scanFrom (.closing read) rest else scanFrom (.inside (c :: read)) rest
  | .closing read, [] => some [.quoted (String.ofList read.reverse)]
  | .closing read, c :: rest =>
    if c = '"' then scanFrom (.inside ('"' :: read)) rest
    else (scanFrom .outside rest).map (.quoted (String.ofList read.reverse) :: .plain c :: ·)

/-- The parts of SQL text. -/
def scan (text : String) : Option (List Lexeme) :=
  scanFrom .outside text.toList

/-- What a part of a text is outside of identifiers: its character, or a gap where an identifier stands. -/
def Lexeme.outside : Lexeme → Option Char
  | plain c => some c
  | quoted _ => none

/-- The text outside of identifiers, with a gap for each of them. -/
def outside (text : String) : Option (List (Option Char)) :=
  (scan text).map (·.map Lexeme.outside)

/-- The names in a text, given the name that is being read. Identifiers with a dot between them are one
name. -/
def namesFrom : Option String → List Lexeme → List String
  | none, [] => []
  | none, .plain _ :: rest => namesFrom none rest
  | none, .quoted part :: rest => namesFrom (some part) rest
  | some name, [] => [name]
  | some name, .plain c :: .quoted part :: rest =>
    if c = '.' then namesFrom (some (name ++ "." ++ part)) rest
    else name :: namesFrom (some part) rest
  | some name, .plain _ :: rest => name :: namesFrom none rest
  | some name, .quoted part :: rest => name :: namesFrom (some part) rest

/-- The names in SQL text. -/
def namesIn (text : String) : Option (List String) :=
  (scan text).map (namesFrom none)

example : scan (quoteName "we\"ird.?" ++ " = ?") =
    some [.quoted "we\"ird", .plain '.', .quoted "?", .plain ' ', .plain '=', .plain ' ', .plain '?'] := by
  decide

/-! ## A name as it is read -/

/-- The parts of a name, given what has been read of the first one, last character first. -/
def partsFrom (read : List Char) : List Char → List Lexeme
  | [] => [.quoted (String.ofList read.reverse)]
  | c :: rest =>
    if c = '.' then .quoted (String.ofList read.reverse) :: .plain '.' :: partsFrom [] rest
    else partsFrom (c :: read) rest

/-- The number of dots in a name. -/
def dots (name : String) : Nat :=
  name.toList.count '.'

/-- What a name with a number of dots is outside of identifiers. -/
def gaps : Nat → List (Option Char)
  | 0 => [none]
  | n + 1 => none :: some '.' :: gaps n

/-- A quoted name is read as its parts, whatever comes behind it that is not a quote. -/
theorem scanFrom_quoteChars (read cs : List Char) {rest : List Char} (hrest : rest.head? ≠ some '"') :
    scanFrom (.inside read) (cs.flatMap quoteChar ++ '"' :: rest) =
      (scanFrom .outside rest).map (partsFrom read cs ++ ·) := by
  induction cs generalizing read with
  | nil =>
    cases rest with
    | nil => rfl
    | cons c rest =>
      have hc : c ≠ '"' := fun h => hrest (congrArg some h)
      simp [scanFrom, partsFrom, hc, Function.comp_def]
  | cons c cs ih =>
    rw [List.flatMap_cons, List.append_assoc]
    by_cases hdot : c = '.'
    · subst hdot
      simp [quoteChar, scanFrom, partsFrom, ih, Function.comp_def]
    · by_cases hquote : c = '"'
      · subst hquote
        simp [quoteChar, scanFrom, partsFrom, ih]
      · simp [quoteChar, scanFrom, partsFrom, ih, hdot, hquote]

/-- Whether what stands behind a name ends it: it is no dot and no further identifier. -/
def EndsParts (rest : List Lexeme) : Prop :=
  ∀ next ∈ rest.head?, ∃ c, c ≠ '.' ∧ next = .plain c

/-- A name that is ended has been read. -/
theorem namesFrom_of_endsParts (name : String) {rest : List Lexeme} (hrest : EndsParts rest) :
    namesFrom (some name) rest = name :: namesFrom none rest := by
  match rest with
  | [] => rfl
  | .quoted part :: _ =>
    obtain ⟨_, -, h⟩ := hrest _ rfl
    cases h
  | [.plain _] => rfl
  | .plain _ :: .plain _ :: _ => rfl
  | .plain d :: .quoted part :: others =>
    obtain ⟨c, hc, h⟩ := hrest _ rfl
    obtain rfl := Lexeme.plain.inj h
    simp [namesFrom, hc]

/-- The parts of a name behind a dot are added to the name before it. -/
theorem namesFrom_dot_parts (name : String) (read cs : List Char) {rest : List Lexeme}
    (hrest : EndsParts rest) :
    namesFrom (some name) (.plain '.' :: (partsFrom read cs ++ rest)) =
      (name ++ "." ++ String.ofList (read.reverse ++ cs)) :: namesFrom none rest := by
  induction cs generalizing name read with
  | nil => simp [partsFrom, namesFrom, namesFrom_of_endsParts _ hrest]
  | cons c cs ih =>
    by_cases hdot : c = '.'
    · have hname : name ++ "." ++ String.ofList read.reverse ++ "." ++ String.ofList cs =
          name ++ "." ++ String.ofList (read.reverse ++ '.' :: cs) := by
        rw [← String.toList_inj]
        simp
      rw [hdot, ← hname, partsFrom, if_pos rfl, List.cons_append, List.cons_append, namesFrom, if_pos rfl,
        ih]
      rfl
    · simp [partsFrom, hdot, ih]

/-- The parts of a name are read as the name. -/
theorem namesFrom_parts (read cs : List Char) {rest : List Lexeme} (hrest : EndsParts rest) :
    namesFrom none (partsFrom read cs ++ rest) =
      String.ofList (read.reverse ++ cs) :: namesFrom none rest := by
  induction cs generalizing read with
  | nil => simp [partsFrom, namesFrom, namesFrom_of_endsParts _ hrest]
  | cons c cs ih =>
    by_cases hdot : c = '.'
    · have hname : String.ofList read.reverse ++ "." ++ String.ofList cs =
          String.ofList (read.reverse ++ '.' :: cs) := by
        rw [← String.toList_inj]
        simp
      rw [hdot, ← hname, partsFrom, if_pos rfl, List.cons_append, List.cons_append, namesFrom,
        namesFrom_dot_parts _ _ _ hrest]
      rfl
    · simp [partsFrom, hdot, ih]

/-- Outside of identifiers a name shows its dots and nothing else. -/
theorem map_outside_parts (read cs : List Char) :
    (partsFrom read cs).map Lexeme.outside = gaps (cs.count '.') := by
  induction cs generalizing read with
  | nil => rfl
  | cons c cs ih =>
    by_cases hdot : c = '.'
    · simp [partsFrom, hdot, ih, gaps, Lexeme.outside]
    · simp [partsFrom, hdot, ih]

/-! ## Text that is put together -/

/-- A part of SQL text before it is written: a character as it stands, or a name. -/
inductive Piece where
  | char (c : Char)
  | name (name : String)
  deriving DecidableEq

namespace Piece

/-- The characters of a part; a name is quoted. -/
def written : Piece → List Char
  | char c => [c]
  | name n => (quoteName n).toList

/-- What a part is read as. -/
def lexemes : Piece → List Lexeme
  | char c => [.plain c]
  | name n => partsFrom [] n.toList

/-- The name that a part is. -/
def name? : Piece → Option String
  | char _ => none
  | name n => some n

/-- What a part shows outside of identifiers. -/
def outside : Piece → List (Option Char)
  | char c => [some c]
  | name n => gaps (dots n)

/-- A part under other names. -/
def rename (f : String → String) : Piece → Piece
  | char c => char c
  | name n => name (f n)

end Piece

/-- Whether parts can stand behind a name: they do not begin with a dot or another name. -/
def Follows (pieces : List Piece) : Prop :=
  ∀ next ∈ pieces.head?, ∃ c, c ≠ '.' ∧ next = .char c

/-- Whether no character of some parts is a quote, and every name ends where the next part begins. -/
def Separated : List Piece → Prop
  | [] => True
  | .char c :: rest => c ≠ '"' ∧ Separated rest
  | .name _ :: rest => Follows rest ∧ Separated rest

/-- Behind a name, separated parts do not begin with a quote. -/
theorem head?_written {pieces : List Piece} (hfollows : Follows pieces) (h : Separated pieces) :
    (pieces.flatMap Piece.written).head? ≠ some '"' := by
  match pieces with
  | [] => simp
  | .char c :: rest =>
    intro hquote
    exact h.1 (Option.some.inj hquote)
  | .name n :: rest =>
    obtain ⟨c, -, hname⟩ := hfollows _ rfl
    cases hname

/-- Parts behind a name end it for the reader. -/
theorem endsParts_lexemes {pieces : List Piece} (h : Follows pieces) :
    EndsParts (pieces.flatMap Piece.lexemes) := by
  match pieces with
  | [] => exact nofun
  | piece :: rest =>
    obtain ⟨c, hc, rfl⟩ := h _ rfl
    intro next hnext
    exact ⟨c, hc, (Option.some.inj hnext).symm⟩

/-- Separated parts are read as what they are. -/
theorem scanFrom_written {pieces : List Piece} (h : Separated pieces) :
    scanFrom .outside (pieces.flatMap Piece.written) = some (pieces.flatMap Piece.lexemes) := by
  induction pieces with
  | nil => rfl
  | cons piece rest ih =>
    cases piece with
    | char c => simp [Piece.written, Piece.lexemes, scanFrom, h.1, ih h.2]
    | name n =>
      have hquoted : (quoteName n).toList ++ rest.flatMap Piece.written =
          '"' :: (n.toList.flatMap quoteChar ++ '"' :: rest.flatMap Piece.written) := by
        simp [quoteName]
      rw [List.flatMap_cons, Piece.written, hquoted, scanFrom, if_pos rfl,
        scanFrom_quoteChars _ _ (head?_written h.1 h.2), ih h.2]
      rfl

/-- The names among separated parts are the names that the reader finds. -/
theorem namesFrom_lexemes {pieces : List Piece} (h : Separated pieces) :
    namesFrom none (pieces.flatMap Piece.lexemes) = pieces.filterMap Piece.name? := by
  induction pieces with
  | nil => rfl
  | cons piece rest ih =>
    cases piece with
    | char c => exact ih h.2
    | name n =>
      rw [List.flatMap_cons, Piece.lexemes, namesFrom_parts _ _ (endsParts_lexemes h.1), ih h.2,
        List.reverse_nil, List.nil_append, String.ofList_toList]
      rfl

/-- What the reader finds outside of identifiers. -/
theorem map_outside_lexemes (pieces : List Piece) :
    (pieces.flatMap Piece.lexemes).map Lexeme.outside = pieces.flatMap Piece.outside := by
  induction pieces with
  | nil => rfl
  | cons piece rest ih =>
    rw [List.flatMap_cons, List.map_append, ih, List.flatMap_cons]
    cases piece with
    | char c => rfl
    | name n => rw [Piece.lexemes, map_outside_parts]; rfl

/-- The marks outside of identifiers are the marks among the parts. -/
theorem count_outside (pieces : List Piece) {c : Char} (hc : c ≠ '.') :
    (pieces.flatMap Piece.outside).count (some c) = pieces.count (.char c) := by
  have hgaps (n : Nat) : (gaps n).count (some c) = 0 := by
    induction n with
    | zero => rfl
    | succ n ih => simp [gaps, ih, Ne.symm hc]
  induction pieces with
  | nil => rfl
  | cons piece rest ih =>
    rw [List.flatMap_cons, List.count_append, ih]
    cases piece with
    | char d => simp [Piece.outside, List.count_cons, Nat.add_comm]
    | name n => simp [Piece.outside, hgaps]

/-- Names with as many dots as before leave what is outside of identifiers as it is. -/
theorem flatMap_outside_rename {f : String → String} {pieces : List Piece}
    (h : ∀ name ∈ pieces.filterMap Piece.name?, dots (f name) = dots name) :
    (pieces.map (Piece.rename f)).flatMap Piece.outside = pieces.flatMap Piece.outside := by
  induction pieces with
  | nil => rfl
  | cons piece rest ih =>
    cases piece with
    | char c => exact congrArg (some c :: ·) (ih h)
    | name n =>
      have hname : dots (f n) = dots n := h n List.mem_cons_self
      have hrest := ih fun name hmem => h name (List.mem_cons_of_mem _ hmem)
      simp only [List.map_cons, List.flatMap_cons, Piece.rename, Piece.outside, hname, hrest]

/-! ## Outlines -/

/-- The characters of a text as parts. -/
def chars (text : String) : List Piece :=
  text.toList.map .char

/-- Whether a text holds neither quotes nor marks. -/
def Plain (text : String) : Prop :=
  ∀ c ∈ text.toList, c ≠ '"' ∧ c ≠ '?'

instance (text : String) : Decidable (Plain text) :=
  List.decidableBAll (fun c => c ≠ '"' ∧ c ≠ '?') text.toList

/-- Rows of parts with commas between them. -/
def commas : List (List Piece) → List Piece
  | [] => []
  | [pieces] => pieces
  | pieces :: rest => pieces ++ chars ", " ++ commas rest

/-- What a text is put together of, and the number of marks among it. -/
structure Outlines (text : String) (pieces : List Piece) (marks : Nat) : Prop where
  written : pieces.flatMap Piece.written = text.toList
  separated : Separated pieces
  marks : pieces.count (.char '?') = marks

/-- Plain texts one after another are plain. -/
theorem Plain.append {a b : String} (ha : Plain a) (hb : Plain b) : Plain (a ++ b) := by
  intro c hc
  rw [String.toList_append, List.mem_append] at hc
  exact hc.elim (ha c) (hb c)

/-- Parts can stand behind a name when they begin with a text that does not begin with a dot. -/
theorem follows_chars_append {text : String} {c : Char} (hhead : text.toList.head? = some c)
    (hc : c ≠ '.') (pieces : List Piece) : Follows (chars text ++ pieces) := by
  intro next hnext
  obtain ⟨rest, hrest⟩ : ∃ rest, text.toList = c :: rest := List.head?_eq_some_iff.mp hhead
  rw [chars, hrest] at hnext
  exact ⟨c, hc, (Option.some.inj hnext).symm⟩

/-- A text can stand behind a name when it does not begin with a dot. -/
theorem follows_chars {text : String} {c : Char} (hhead : text.toList.head? = some c) (hc : c ≠ '.') :
    Follows (chars text) := by
  simpa using follows_chars_append hhead hc []

/-- No parts can stand behind a name. -/
theorem follows_nil : Follows [] :=
  nofun

/-- Parts are separated when two halves are and the second one can stand behind a name. -/
theorem separated_append {left right : List Piece} (hleft : Separated left) (hright : Separated right)
    (hfollows : Follows right) : Separated (left ++ right) := by
  induction left with
  | nil => exact hright
  | cons piece rest ih =>
    cases piece with
    | char c => exact ⟨hleft.1, ih hleft.2⟩
    | name n =>
      refine ⟨?_, ih hleft.2⟩
      cases rest with
      | nil => exact hfollows
      | cons next others => exact hleft.1

/-- Characters that are no quotes can stand before separated parts. -/
theorem separated_chars_append {cs : List Char} {pieces : List Piece} (h : '"' ∉ cs)
    (hpieces : Separated pieces) : Separated (cs.map .char ++ pieces) := by
  induction cs with
  | nil => exact hpieces
  | cons c rest ih =>
    simp only [List.mem_cons, not_or] at h
    exact ⟨Ne.symm h.1, ih h.2⟩

namespace Outlines

variable {a b : String} {p q : List Piece} {m n : Nat}

/-- A quoted name is put together of the name. -/
theorem ofName (name : String) : Outlines (quoteName name) [.name name] 0 :=
  ⟨by simp [Piece.written], ⟨follows_nil, trivial⟩, rfl⟩

/-- Texts one after another are put together of the parts of both. -/
theorem append (ha : Outlines a p m) (hb : Outlines b q n) (hq : Follows q) :
    Outlines (a ++ b) (p ++ q) (m + n) where
  written := by rw [List.flatMap_append, ha.written, hb.written, String.toList_append]
  separated := separated_append ha.separated hb.separated hq
  marks := by rw [List.count_append, ha.marks, hb.marks]

/-- Behind a quoted name its parts can be followed by what can stand behind a name. -/
theorem name_append (name : String) (hb : Outlines b q n) (hq : Follows q) :
    Outlines (quoteName name ++ b) (.name name :: q) n := by
  simpa using (ofName name).append hb hq

/-- A text without quotes is put together of its characters. -/
theorem ofChars (text : String) (h : '"' ∉ text.toList) :
    Outlines text (chars text) (text.toList.count '?') where
  written := by simp [chars, List.flatMap_map, Piece.written]
  separated := by
    have hsep : Separated (text.toList.map .char ++ []) := separated_chars_append h trivial
    rwa [List.append_nil] at hsep
  marks := List.count_map_of_injective _ Piece.char (fun _ _ => Piece.char.inj) '?'

/-- Behind a plain text anything can stand. -/
theorem plain_append (text : String) (h : Plain text) (hb : Outlines b q n) :
    Outlines (text ++ b) (chars text ++ q) n := by
  have htext := ofChars text fun hquote => (h _ hquote).1 rfl
  refine ⟨?_, separated_chars_append (fun hquote => (h _ hquote).1 rfl) hb.separated, ?_⟩
  · rw [List.flatMap_append, htext.written, hb.written, String.toList_append]
  · rw [List.count_append, htext.marks, hb.marks,
      List.count_eq_zero_of_not_mem fun hmark => (h _ hmark).2 rfl, Nat.zero_add]

/-- A plain text is put together of its characters. -/
theorem ofPlain (text : String) (h : Plain text) : Outlines text (chars text) 0 := by
  have hempty : Outlines "" [] 0 := ⟨rfl, trivial, rfl⟩
  simpa using plain_append text h hempty

/-- Texts with commas between them are put together of rows of parts with commas between them. -/
theorem join {α : Type} {f : α → String} {g : α → List Piece} (h : ∀ x, Outlines (f x) (g x) m)
    (xs : List α) : Outlines (Sql.join ", " (xs.map f)) (commas (xs.map g)) (xs.length * m) := by
  match xs with
  | [] => exact ⟨rfl, trivial, by simp [commas]⟩
  | [x] => simpa [Sql.join, commas] using h x
  | x :: y :: rest =>
    have hrest := join h (y :: rest)
    have hcomma : Outlines (", " ++ Sql.join ", " ((y :: rest).map f))
        (chars ", " ++ commas ((y :: rest).map g)) ((y :: rest).length * m) :=
      plain_append ", " (by decide) hrest
    have happend := (h x).append hcomma (follows_chars_append rfl (by decide) _)
    have hlength : m + (y :: rest).length * m = (x :: y :: rest).length * m := by
      rw [List.length_cons (a := x), Nat.succ_mul, Nat.add_comm]
    rw [hlength, ← String.append_assoc, ← List.append_assoc] at happend
    exact happend

end Outlines

/-- The characters of a text are no names. -/
theorem filterMap_name?_chars (text : String) : (chars text).filterMap Piece.name? = [] := by
  simp [chars, List.filterMap_map, Function.comp_def, Piece.name?]

/-- The characters of a text stay under other names. -/
theorem map_rename_chars (f : String → String) (text : String) :
    (chars text).map (Piece.rename f) = chars text := by
  simp [chars, Function.comp_def, Piece.rename]

/-- The names among rows of parts with commas between them. -/
theorem filterMap_name?_commas (rows : List (List Piece)) :
    (commas rows).filterMap Piece.name? = rows.flatMap (·.filterMap Piece.name?) := by
  match rows with
  | [] => rfl
  | [pieces] => simp [commas]
  | pieces :: next :: rest =>
    have hrest := filterMap_name?_commas (next :: rest)
    simp only [commas, List.filterMap_append, filterMap_name?_chars, List.append_nil, hrest,
      List.flatMap_cons]

/-- Rows of parts with commas between them under other names. -/
theorem map_rename_commas (f : String → String) (rows : List (List Piece)) :
    (commas rows).map (Piece.rename f) = commas (rows.map (·.map (Piece.rename f))) := by
  match rows with
  | [] => rfl
  | [pieces] => rfl
  | pieces :: next :: rest =>
    have hrest := map_rename_commas f (next :: rest)
    simp only [commas, List.map_append, map_rename_chars, hrest, List.map_cons]

end Sql

end SchemaQuery
