/-!
# Quoted text

The content of a JSON string between its quotes. Writing escapes the quote, the backslash and the
control characters below `U+0020`; reading knows every escape of the format.
-/

namespace SchemaQuery.Quoted

/-- A digit of base sixteen in lower case. -/
def hexDigit (n : Nat) : Char :=
  if n < 10 then Char.ofNat (48 + n) else Char.ofNat (87 + n)

/-- How a character is written inside quotes. -/
def escape (c : Char) : List Char :=
  if c = '"' then ['\\', '"']
  else if c = '\\' then ['\\', '\\']
  else if c = '\x08' then ['\\', 'b']
  else if c = '\x0c' then ['\\', 'f']
  else if c = '\n' then ['\\', 'n']
  else if c = '\r' then ['\\', 'r']
  else if c = '\t' then ['\\', 't']
  else if c.toNat < 32 then ['\\', 'u', '0', '0', hexDigit (c.toNat / 16), hexDigit (c.toNat % 16)]
  else [c]

/-- Characters as written between quotes. -/
def encode (cs : List Char) : List Char :=
  cs.flatMap escape

/-- A string as written, quotes included. -/
def quote (cs : List Char) : List Char :=
  '"' :: encode cs ++ ['"']

/-- The value of a digit of base sixteen. -/
def hexValue? (c : Char) : Option Nat :=
  if '0' ≤ c ∧ c ≤ '9' then some (c.toNat - 48)
  else if 'a' ≤ c ∧ c ≤ 'f' then some (c.toNat - 87)
  else if 'A' ≤ c ∧ c ≤ 'F' then some (c.toNat - 55)
  else none

/-- The 16-bit unit of four digits of base sixteen. -/
def unit? (a b c d : Char) : Option Nat := do
  return ((← hexValue? a) * 16 + (← hexValue? b)) * 256 + (← hexValue? c) * 16 + (← hexValue? d)

/-- Whether a unit is the first half of a surrogate pair. -/
def isHighSurrogate (u : Nat) : Bool :=
  0xD800 ≤ u && u < 0xDC00

/-- Whether a unit is the second half of a surrogate pair. -/
def isLowSurrogate (u : Nat) : Bool :=
  0xDC00 ≤ u && u < 0xE000

/-- The character of a surrogate pair. -/
def pair (high low : Nat) : Char :=
  Char.ofNat (0x10000 + (high - 0xD800) * 0x400 + (low - 0xDC00))

/-- The character of an escape of one letter. -/
def escaped? (c : Char) : Option Char :=
  if c = '"' ∨ c = '\\' ∨ c = '/' then some c
  else if c = 'b' then some '\x08'
  else if c = 'f' then some '\x0c'
  else if c = 'n' then some '\n'
  else if c = 'r' then some '\r'
  else if c = 't' then some '\t'
  else none

/-- The code points of what stands between quotes, each half of a surrogate pair by itself; nothing where
the text breaks the format. -/
def codePoints? : List Char → Option (List Nat)
  | [] => some []
  | '\\' :: 'u' :: a :: b :: c :: d :: rest =>
    match unit? a b c d with
    | none => none
    | some unit => (codePoints? rest).map (unit :: ·)
  | '\\' :: c :: rest =>
    match escaped? c with
    | none => none
    | some c => (codePoints? rest).map (c.toNat :: ·)
  | c :: rest =>
    if c = '"' ∨ c = '\\' ∨ c.toNat < 32 then none else (codePoints? rest).map (c.toNat :: ·)

/-- The characters of code points, if no half of a surrogate pair stands alone. -/
def characters? : List Nat → Option (List Char)
  | [] => some []
  | [point] =>
    if isHighSurrogate point || isLowSurrogate point then none else some [Char.ofNat point]
  | point :: next :: rest =>
    if isHighSurrogate point then
      if isLowSurrogate next then (characters? rest).map (pair point next :: ·) else none
    else if isLowSurrogate point then none
    else (characters? (next :: rest)).map (Char.ofNat point :: ·)

/-- Reads what stands between quotes. The outer option is empty where the text breaks the format, the
inner one where it keeps the format but half of a surrogate pair stands alone. -/
def decode (cs : List Char) : Option (Option (List Char)) :=
  (codePoints? cs).map characters?

end SchemaQuery.Quoted
