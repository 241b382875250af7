import SchemaQuery.Json.Printer
import SchemaQuery.Json.Reader
import SchemaQuery.Proofs.Schema.Codec

/-!
# Texts in written JSON

A text is read back from between its quotes, whatever its characters are, and no control character stands there, so
that it never ends a line. An object whose values are texts is therefore written on one line and read back from it.
-/

namespace SchemaQuery

namespace Quoted

/-! ## Between quotes -/

/-- How a character may be written: a backslash and a letter that stands for it, its number behind a backslash, or
the character itself. -/
inductive Written (c : Char) : List Char → Prop where
  | letter (letter : Char) (hletter : escaped? letter = some c) (hother : letter ≠ 'u') (hplain : 32 ≤ letter.toNat) :
    Written c ['\\', letter]
  | number (h : c.toNat < 32) :
    Written c ['\\', 'u', '0', '0', hexDigit (c.toNat / 16), hexDigit (c.toNat % 16)]
  | itself (hquote : c ≠ '"') (hbackslash : c ≠ '\\') (hplain : 32 ≤ c.toNat) : Written c [c]

/-- A character is written in one of these ways. -/
theorem written_escape (c : Char) : Written c (escape c) := by
  by_cases hletter : c ∈ ['"', '\\', '\x08', '\x0c', '\n', '\r', '\t']
  · simp only [List.mem_cons, List.not_mem_nil, or_false] at hletter
    rcases hletter with rfl | rfl | rfl | rfl | rfl | rfl | rfl
    · exact .letter '"' rfl (by decide) (by decide)
    · exact .letter '\\' rfl (by decide) (by decide)
    · exact .letter 'b' rfl (by decide) (by decide)
    · exact .letter 'f' rfl (by decide) (by decide)
    · exact .letter 'n' rfl (by decide) (by decide)
    · exact .letter 'r' rfl (by decide) (by decide)
    · exact .letter 't' rfl (by decide) (by decide)
  · simp only [List.mem_cons, List.not_mem_nil, or_false, not_or] at hletter
    obtain ⟨hquote, hbackslash, hb, hf, hn, hr, ht⟩ := hletter
    rw [escape, if_neg hquote, if_neg hbackslash, if_neg hb, if_neg hf, if_neg hn, if_neg hr, if_neg ht]
    by_cases hcontrol : c.toNat < 32
    · rw [if_pos hcontrol]
      exact .number hcontrol
    · rw [if_neg hcontrol]
      exact .itself hquote hbackslash (Nat.not_lt.mp hcontrol)

/-- A digit of base sixteen has its value. -/
theorem hexValue?_hexDigit {n : Nat} (h : n < 16) : hexValue? (hexDigit n) = some n := by
  have hall : ∀ n : Fin 16, hexValue? (hexDigit n) = some n.val := by decide
  exact hall ⟨n, h⟩

/-- A written character is read as its code point. -/
theorem codePoints?_escape (c : Char) (rest : List Char) :
    codePoints? (escape c ++ rest) = (codePoints? rest).map (c.toNat :: ·) := by
  have hwritten := written_escape c
  generalize escape c = written at hwritten ⊢
  cases hwritten with
  | letter letter hletter hother =>
    simp [codePoints?, hletter, hother]
  | number h =>
    have hhigh := hexValue?_hexDigit (Nat.div_lt_of_lt_mul (Nat.lt_trans h (by decide : 32 < 16 * 16)))
    have hlow := hexValue?_hexDigit (Nat.mod_lt c.toNat (by decide : 0 < 16))
    have hunit : unit? '0' '0' (hexDigit (c.toNat / 16)) (hexDigit (c.toNat % 16)) = some c.toNat := by
      have hzero : hexValue? '0' = some 0 := rfl
      simp only [unit?, hzero, hhigh, hlow, Option.bind_eq_bind, Option.bind_some, pure]
      congr 1
      omega
    simp [codePoints?, hunit]
  | itself hquote hbackslash hplain =>
    simp [codePoints?, hquote, hbackslash, Nat.not_lt.mpr hplain]

/-- Written characters are read as their code points. -/
theorem codePoints?_encode (cs : List Char) : codePoints? (encode cs) = some (cs.map Char.toNat) := by
  induction cs with
  | nil => rfl
  | cons c rest ih =>
    have hencode : encode (c :: rest) = escape c ++ encode rest := rfl
    rw [hencode, codePoints?_escape, ih]
    rfl

/-- A character is no half of a surrogate pair. -/
theorem not_surrogate (c : Char) : isHighSurrogate c.toNat = false ∧ isLowSurrogate c.toNat = false := by
  have hvalid : c.toNat < 0xD800 ∨ 0xDFFF < c.toNat ∧ c.toNat < 0x110000 := c.valid
  simp only [isHighSurrogate, isLowSurrogate, Bool.and_eq_false_iff, decide_eq_false_iff_not]
  omega

/-- The code points of characters are those of the characters. -/
theorem characters?_toNat (cs : List Char) : characters? (cs.map Char.toNat) = some cs := by
  induction cs with
  | nil => rfl
  | cons c rest ih =>
    obtain ⟨hhigh, hlow⟩ := not_surrogate c
    cases rest with
    | nil => simp [characters?, hhigh, hlow, Char.ofNat_toNat]
    | cons next rest =>
      rw [List.map_cons] at ih
      simp [characters?, hhigh, hlow, Char.ofNat_toNat, ih]

/-- What stands between quotes is read as it was written. -/
theorem decode_encode (cs : List Char) : decode (encode cs) = some (some cs) := by
  rw [decode, codePoints?_encode, Option.map_some, characters?_toNat]

/-- No control character stands in written characters. -/
theorem le_toNat_of_mem_encode {cs : List Char} {c : Char} (h : c ∈ encode cs) : 32 ≤ c.toNat := by
  have hhex : ∀ n : Fin 16, 32 ≤ (hexDigit n).toNat := by decide
  obtain ⟨origin, -, hmem⟩ := List.mem_flatMap.mp h
  have hwritten := written_escape origin
  generalize escape origin = written at hwritten hmem
  cases hwritten with
  | letter letter _ _ hplain =>
    simp only [List.mem_cons, List.not_mem_nil, or_false] at hmem
    rcases hmem with rfl | rfl
    · decide
    · exact hplain
  | number hcontrol =>
    simp only [List.mem_cons, List.not_mem_nil, or_false] at hmem
    rcases hmem with rfl | rfl | rfl | rfl | rfl | rfl
    · decide
    · decide
    · decide
    · decide
    · exact hhex ⟨origin.toNat / 16, by omega⟩
    · exact hhex ⟨origin.toNat % 16, by omega⟩
  | itself _ _ hplain =>
    rw [List.mem_singleton.mp hmem]
    exact hplain

/-- No control character stands in quoted text. -/
theorem le_toNat_of_mem_quote (cs : List Char) : ∀ c ∈ quote cs, 32 ≤ c.toNat := by
  intro c hc
  simp only [quote, List.cons_append, List.mem_cons, List.mem_append, List.not_mem_nil, or_false] at hc
  rcases hc with rfl | hc | rfl
  · decide
  · exact le_toNat_of_mem_encode hc
  · decide

end Quoted

/-! ## Texts as tokens -/

namespace Token

variable (rest : List Char) (found : List Token)

/-- A written character is read on in the text that it stands in. -/
theorem scanFrom_escape (c : Char) (read : List Char) :
    scanFrom (Quoted.escape c ++ rest) (.inText read) found =
      scanFrom rest (.inText ((Quoted.escape c).reverse ++ read)) found := by
  have hwritten := Quoted.written_escape c
  generalize Quoted.escape c = written at hwritten ⊢
  cases hwritten with
  | letter letter => simp [scanFrom]
  | number h =>
    have hhex : ∀ n : Fin 16, Quoted.hexDigit n ≠ '"' ∧ Quoted.hexDigit n ≠ '\\' := by decide
    have hhigh := hhex ⟨c.toNat / 16, by omega⟩
    have hlow := hhex ⟨c.toNat % 16, by omega⟩
    simp [scanFrom, hhigh, hlow]
  | itself hquote hbackslash => simp [scanFrom, hquote, hbackslash]

/-- Written characters are read on in the text that they stand in. -/
theorem scanFrom_encode (cs read : List Char) :
    scanFrom (Quoted.encode cs ++ rest) (.inText read) found =
      scanFrom rest (.inText ((Quoted.encode cs).reverse ++ read)) found := by
  induction cs generalizing read with
  | nil => rfl
  | cons c cs ih =>
    have hencode : Quoted.encode (c :: cs) = Quoted.escape c ++ Quoted.encode cs := rfl
    rw [hencode, List.append_assoc, scanFrom_escape, ih, List.reverse_append, List.append_assoc]

/-- A text in quotes is one token. -/
theorem scanFrom_quote (text : String) :
    scanFrom (Quoted.quote text.toList ++ rest) .between found =
      scanFrom rest .between (.text (some text) :: found) := by
  have hopen : enter? '"' = some (none, .inText []) := rfl
  have hclose : ofQuoted? (Quoted.encode text.toList) = some (.text (some text)) := by
    rw [ofQuoted?, Quoted.decode_encode, Option.map_some, Option.map_some, String.ofList_toList]
  have hquote : Quoted.quote text.toList ++ rest = '"' :: (Quoted.encode text.toList ++ '"' :: rest) := by
    simp [Quoted.quote]
  rw [hquote, scanFrom, hopen]
  dsimp only
  rw [Option.toList_none, List.nil_append, scanFrom_encode, scanFrom, if_pos rfl, List.append_nil,
    List.reverse_reverse, hclose]

end Token

/-! ## Objects of texts -/

/-- Named texts as members. -/
def Members.ofTexts (texts : List (String × String)) : Members :=
  texts.map fun entry => (entry.1, .str entry.2)

/-- The tokens of named texts, each behind a comma. -/
def Token.ofTexts (texts : List (String × String)) : List Token :=
  texts.flatMap fun entry => [.comma, .text (some entry.1), .colon, .text (some entry.2)]

/-- Written members are read as their tokens. -/
theorem Token.scanFrom_printMembers (texts : List (String × String)) (rest : List Char) (found : List Token) :
    scanFrom (printMembers .compact 0 (Members.ofTexts texts) ++ rest) .between found =
      scanFrom rest .between ((ofTexts texts).reverse ++ found) := by
  have hcomma : enter? ',' = some (some .comma, .between) := rfl
  have hcolon : enter? ':' = some (some .colon, .between) := rfl
  induction texts generalizing found with
  | nil => rfl
  | cons entry texts ih =>
    obtain ⟨name, text⟩ := entry
    have hprint : printMembers .compact 0 (Members.ofTexts ((name, text) :: texts)) ++ rest =
        ',' :: (Quoted.quote name.toList ++ (':' :: (Quoted.quote text.toList ++
          (printMembers .compact 0 (Members.ofTexts texts) ++ rest)))) := by
      simp [Members.ofTexts, printMembers, Json.print, Layout.compact]
    rw [hprint, scanFrom, hcomma]
    dsimp only
    rw [scanFrom_quote, scanFrom, hcolon]
    dsimp only
    rw [scanFrom_quote, ih]
    simp [ofTexts]

/-- Members that are read behind others are put with them. -/
theorem Document.run_ofTexts (texts : List (String × String)) (members : List (Option String × Document))
    (name text : String) :
    run (.after (.str text) [.obj members (some name)]) (Token.ofTexts texts ++ [.endObject]) =
      some (.after (.obj (members.reverse ++ membersToDocuments (Members.ofTexts ((name, text) :: texts)))) []) := by
  induction texts generalizing members name text with
  | nil => simp [Token.ofTexts, run, step, finish, depthLimit, Members.ofTexts, membersToDocuments, Json.toDocument]
  | cons entry texts ih =>
    obtain ⟨next, more⟩ := entry
    have hread := ih ((some name, .str text) :: members) next more
    simp only [Token.ofTexts, List.flatMap_cons, List.cons_append, List.nil_append, run, step, beginValue] at hread ⊢
    rw [hread]
    simp [Members.ofTexts, membersToDocuments, Json.toDocument]

/-- An object of named texts is read as its tokens. -/
theorem Token.scan_ofTexts (name text : String) (texts : List (String × String)) :
    scan ((Json.obj (Members.ofTexts ((name, text) :: texts))).print .compact 0) =
      some ([.beginObject, .text (some name), .colon, .text (some text)] ++ ofTexts texts ++ [.endObject]) := by
  have hbegin : enter? '{' = some (some .beginObject, .between) := rfl
  have hcolon : enter? ':' = some (some .colon, .between) := rfl
  have hend : enter? '}' = some (some .endObject, .between) := rfl
  have hprint : (Json.obj (Members.ofTexts ((name, text) :: texts))).print .compact 0 =
      '{' :: (Quoted.quote name.toList ++ (':' :: (Quoted.quote text.toList ++
        (printMembers .compact 0 (Members.ofTexts texts) ++ ['}'])))) := by
    simp [Members.ofTexts, Json.print, Layout.compact]
  rw [scan, hprint, scanFrom, hbegin]
  dsimp only
  rw [scanFrom_quote, scanFrom, hcolon]
  dsimp only
  rw [scanFrom_quote, scanFrom_printMembers, scanFrom, hend]
  simp [scanFrom]

/-- No object stands in named texts, so that none has a name twice. -/
theorem membersDistinct_ofTexts (texts : List (String × String)) : MembersDistinct (Members.ofTexts texts) := by
  induction texts with
  | nil => trivial
  | cons entry texts ih => exact ⟨trivial, ih⟩

/-- An object of named texts is read back as it was written, if no name comes twice. -/
theorem Json.ofText?_compact_ofTexts {texts : List (String × String)} (h : (texts.map Prod.fst).Nodup) :
    ofText? (Json.obj (Members.ofTexts texts)).compact = some (.obj (Members.ofTexts texts)) := by
  cases texts with
  | nil => rfl
  | cons entry texts =>
    obtain ⟨name, text⟩ := entry
    have htokens : Document.ofTokens?
        ([.beginObject, .text (some name), .colon, .text (some text)] ++ Token.ofTexts texts ++ [.endObject]) =
          some (Json.obj (Members.ofTexts ((name, text) :: texts))).toDocument := by
      have hrun := Document.run_ofTexts texts [] name text
      simp only [List.reverse_nil, List.nil_append] at hrun
      simp only [Document.ofTokens?, List.cons_append, List.nil_append, Document.run, Document.step,
        Document.beginValue, hrun, Json.toDocument]
    have hdistinct : (Json.obj (Members.ofTexts ((name, text) :: texts))).Distinct := by
      refine ⟨?_, membersDistinct_ofTexts _⟩
      simpa [Members.names, Members.ofTexts, Function.comp_def] using h
    rw [ofText?, Document.ofText?, compact, String.toList_ofList, Token.scan_ofTexts, Option.bind_some, htokens,
      Option.bind_some, Json.toJson?_toDocument _ hdistinct]

/-- Members that are texts are written without control characters. -/
theorem le_toNat_of_mem_printMembers (texts : List (String × String)) :
    ∀ c ∈ printMembers .compact 0 (Members.ofTexts texts), 32 ≤ c.toNat := by
  induction texts with
  | nil => exact fun _ hc => absurd hc List.not_mem_nil
  | cons entry texts ih =>
    obtain ⟨name, text⟩ := entry
    have hname := Quoted.le_toNat_of_mem_quote name.toList
    have htext := Quoted.le_toNat_of_mem_quote text.toList
    simp only [Members.ofTexts, List.map_cons, printMembers, Json.print, Layout.compact, List.nil_append,
      List.cons_append, List.forall_mem_cons, List.forall_mem_append] at ih ⊢
    exact ⟨by decide, ⟨⟨hname, by decide, List.forall_mem_nil _⟩, htext⟩, ih⟩

/-- An object of named texts is written without control characters. -/
theorem Json.le_toNat_of_mem_compact_ofTexts (texts : List (String × String)) :
    ∀ c ∈ (Json.obj (Members.ofTexts texts)).compact.toList, 32 ≤ c.toNat := by
  rw [compact, String.toList_ofList]
  cases texts with
  | nil => exact List.forall_mem_cons.mpr ⟨by decide, List.forall_mem_singleton.mpr (by decide)⟩
  | cons entry texts =>
    obtain ⟨name, text⟩ := entry
    have hname := Quoted.le_toNat_of_mem_quote name.toList
    have htext := Quoted.le_toNat_of_mem_quote text.toList
    have hrest := le_toNat_of_mem_printMembers texts
    simp only [Members.ofTexts, List.map_cons, print, Layout.compact, List.nil_append, List.append_nil,
      List.cons_append, List.forall_mem_cons, List.forall_mem_append] at hrest ⊢
    exact ⟨by decide, ⟨⟨⟨hname, by decide, List.forall_mem_nil _⟩, htext⟩, hrest⟩, by decide, List.forall_mem_nil _⟩

end SchemaQuery
