import SchemaQuery.Calendar.Date
import SchemaQuery.Text.Blank

/-!
# Instants and their text

An instant is a day and a time of day in universal time. It is written as `YYYY-MM-DDThh:mm:ss.mmmZ`, with
a sign where the year needs more than four digits, and read in that form with any offset, or as a date.
-/

namespace SchemaQuery.Calendar

/-- A moment in universal time. -/
structure Instant where
  /-- Days since 1970-01-01. -/
  days : Int
  /-- The second of the day. -/
  second : Nat
  /-- The fraction of the second; a thousand million and above is within a leap second. -/
  nanosecond : Nat
  deriving DecidableEq

/-- The seconds of a day. -/
def secondsPerDay : Nat := 86400

/-- The nanoseconds of a second. -/
def nanosPerSecond : Nat := 1000000000

namespace Instant

/-- The start of a day of the calendar. -/
def ofDate? (d : Date) : Option Instant :=
  if d.isValid ∧ d.inRange then some ⟨d.toDays, 0, 0⟩ else none

/-- The instant of a number of milliseconds since 1970, if its year is one of the calendar. -/
def ofMillis? (millis : Int) : Option Instant :=
  let days := millis / 86400000
  let rest := (millis % 86400000).toNat
  if (Date.ofDays days).inRange then some ⟨days, rest / 1000, rest % 1000 * 1000000⟩ else none

/-- A number with at least so many digits. -/
def padded (width n : Nat) : List Char :=
  let digits := Nat.toDigits 10 n
  List.replicate (width - digits.length) '0' ++ digits

/-- A year: four digits, or a sign and at least four. -/
def yearChars (year : Int) : List Char :=
  if 0 ≤ year ∧ year ≤ 9999 then padded 4 year.toNat
  else (if year < 0 then '-' else '+') :: padded 4 year.natAbs

/-- The text of an instant, cut to milliseconds. A leap second is second 60. -/
def toChars (t : Instant) : List Char :=
  let date := Date.ofDays t.days
  let second := t.second % 60 + t.nanosecond / nanosPerSecond
  yearChars date.year ++ '-' :: padded 2 date.month ++ '-' :: padded 2 date.day ++
    'T' :: padded 2 (t.second / 3600) ++ ':' :: padded 2 (t.second / 60 % 60) ++
    ':' :: padded 2 second ++ '.' :: padded 3 (t.nanosecond % nanosPerSecond / 1000000) ++ ['Z']

/-- The text of an instant. -/
def toText (t : Instant) : String :=
  String.ofList t.toChars

/-- The value of a row of digits; nothing for the empty row and other characters. -/
def number? (cs : List Char) : Option Nat :=
  if cs ≠ [] ∧ cs.all Char.isDigit then some (cs.foldl (fun n c => n * 10 + (c.toNat - 48)) 0)
  else none

/-- Moves an instant back by seconds. -/
def minusSeconds (t : Instant) (seconds : Int) : Instant :=
  let total := (t.second : Int) - seconds
  { t with days := t.days + total / secondsPerDay, second := (total % secondsPerDay).toNat }

/-- Reads the fraction of a second, of which nine digits count, and what follows it. -/
def fraction? : List Char → Option (Nat × List Char)
  | '.' :: rest =>
    let (digits, rest) := rest.span Char.isDigit
    let counted := digits.take 9
    (number? (counted ++ List.replicate (9 - counted.length) '0')).bind fun n =>
      if digits = [] then none else some (n, rest)
  | cs => some (0, cs)

/-- Reads an offset from universal time in seconds. -/
def offset? : List Char → Option Int
  | ['Z'] | ['z'] => some 0
  | [sign, h₁, h₂, ':', m₁, m₂] => do
    let negative ←
      if sign = '+' then some false else if sign = '-' ∨ sign = '\u2212' then some true else none
    let hours ← number? [h₁, h₂]
    let minutes ← number? [m₁, m₂]
    if hours < 24 ∧ minutes < 60 then
      let seconds : Int := hours * 3600 + minutes * 60
      return if negative then -seconds else seconds
    else none
  | _ => none

/-- Reads a date with time and offset. -/
def ofTimestamp? : List Char → Option Instant
  | y₁ :: y₂ :: y₃ :: y₄ :: '-' :: m₁ :: m₂ :: '-' :: d₁ :: d₂ :: separator ::
      h₁ :: h₂ :: ':' :: i₁ :: i₂ :: ':' :: s₁ :: s₂ :: rest => do
    let year ← number? [y₁, y₂, y₃, y₄]
    let month ← number? [m₁, m₂]
    let day ← number? [d₁, d₂]
    let hour ← number? [h₁, h₂]
    let minute ← number? [i₁, i₂]
    let second ← number? [s₁, s₂]
    let (nanosecond, rest) ← fraction? rest
    let offset ← offset? rest
    let date : Date := ⟨year, month, day⟩
    if (separator = 'T' ∨ separator = 't' ∨ separator = ' ') ∧ date.isValid ∧
        hour < 24 ∧ minute < 60 ∧ second ≤ 60 then
      let clock := hour * 3600 + minute * 60
      let clockTime : Instant :=
        if second = 60 then ⟨date.toDays, clock + 59, nanosecond + nanosPerSecond⟩
        else ⟨date.toDays, clock + second, nanosecond⟩
      return clockTime.minusSeconds offset
    else none
  | _ => none

/-- Reads a year: a sign and any number of digits, or up to four digits; blanks may come first. -/
def year? (cs : List Char) : Option (Int × List Char) :=
  match Text.trimLeft cs with
  | '-' :: rest =>
    let (digits, rest) := rest.span Char.isDigit
    (number? digits).map fun n => (-(n : Int), rest)
  | '+' :: rest =>
    let (digits, rest) := rest.span Char.isDigit
    (number? digits).map fun n => ((n : Int), rest)
  | cs =>
    let digits := (cs.take 4).takeWhile Char.isDigit
    (number? digits).map fun n => ((n : Int), cs.drop digits.length)

/-- Reads up to two digits; blanks may come first. -/
def upToTwoDigits? (cs : List Char) : Option (Nat × List Char) :=
  let cs := Text.trimLeft cs
  let digits := (cs.take 2).takeWhile Char.isDigit
  (number? digits).map fun n => (n, cs.drop digits.length)

/-- Reads a date without a time. -/
def ofDateText? (cs : List Char) : Option Instant := do
  let (year, cs) ← year? cs
  let '-' :: cs := cs | none
  let (month, cs) ← upToTwoDigits? cs
  let '-' :: cs := cs | none
  let (day, cs) ← upToTwoDigits? cs
  if cs = [] then ofDate? ⟨year, month, day⟩ else none

/-- The instant of a text; blanks around it do not count. -/
def ofText? (text : String) : Option Instant :=
  let cs := Text.trim text.toList
  match ofTimestamp? cs with
  | some t => some t
  | none => ofDateText? cs

end Instant

end SchemaQuery.Calendar
