import SchemaQuery.Json.Decimal
import SchemaQuery.Json.Document

/-!
# Number literals

A literal without point and exponent that fits 64 bits is an integer. Every other literal is a float:
its leading digits that fit an unsigned 64-bit number, rounded and scaled by a power of ten.
-/

namespace SchemaQuery

/-- A number as written. -/
structure NumberLiteral where
  negative : Bool
  /-- The digits before the point. -/
  whole : List Char
  /-- The digits after the point, if there is one. -/
  fraction : Option (List Char)
  exponent : Option Int
  deriving DecidableEq

namespace NumberLiteral

/-- The value of a decimal digit. -/
def digitValue (c : Char) : Nat :=
  c.toNat - 48

/-- The value of a row of decimal digits. -/
def natOfDigits (digits : List Char) : Nat :=
  digits.foldl (fun n c => n * 10 + digitValue c) 0

/-- Splits a leading row of digits off. -/
def spanDigits (cs : List Char) : List Char × List Char :=
  cs.span Char.isDigit

/-- The exponent that ends a literal. -/
def readExponent? : List Char → Option (Option Int)
  | [] => some none
  | e :: rest =>
    if e = 'e' ∨ e = 'E' then
      let (negative, digits) := match rest with
        | '-' :: more => (true, more)
        | '+' :: more => (false, more)
        | _ => (false, rest)
      if digits ≠ [] ∧ digits.all Char.isDigit then
        let size : Int := natOfDigits digits
        some (some (if negative then -size else size))
      else none
    else none

/-- Reads a literal: no needless leading zero, and a digit on both sides of a point. -/
def read? (cs : List Char) : Option NumberLiteral := do
  let (negative, cs) := match cs with
    | '-' :: rest => (true, rest)
    | _ => (false, cs)
  let (whole, cs) := spanDigits cs
  if whole = [] ∨ (whole.head? = some '0' ∧ whole.length ≠ 1) then none
  let (fraction, cs) ← match cs with
    | '.' :: rest =>
      let (digits, rest) := spanDigits rest
      if digits = [] then none else some (some digits, rest)
    | _ => some (none, cs)
  let exponent ← readExponent? cs
  return { negative, whole, fraction, exponent }

/-- The least coefficient that is not kept exactly. -/
def coefficientLimit : Nat := Whole.greatest + 1

/-- Takes digits before the point into the coefficient until one does not fit; from then on each only
raises the exponent. -/
def takeWhole : List Char → Nat → Nat × Nat
  | [], coefficient => (coefficient, 0)
  | c :: rest, coefficient =>
    let more := coefficient * 10 + digitValue c
    if more < coefficientLimit then takeWhole rest more else (coefficient, rest.length + 1)

/-- Takes digits after the point into the coefficient until one does not fit; the rest is dropped. -/
def takeFraction : List Char → Nat → Nat × Nat
  | [], coefficient => (coefficient, 0)
  | c :: rest, coefficient =>
    let more := coefficient * 10 + digitValue c
    if more < coefficientLimit then
      let (coefficient, places) := takeFraction rest more
      (coefficient, places + 1)
    else (coefficient, 0)

/-- The leading digits that fit, as a decimal number. -/
def leading (n : NumberLiteral) : Decimal :=
  let (coefficient, dropped) := takeWhole n.whole 0
  let (coefficient, places) := takeFraction (n.fraction.getD []) coefficient
  ⟨coefficient, n.exponent.getD 0 + dropped - places⟩

/-- The value of a literal; a float beyond the finite range has none. -/
def value (n : NumberLiteral) : Document :=
  let size : Int := natOfDigits n.whole
  let signed := if n.negative then -size else size
  if h : n.fraction = none ∧ n.exponent = none ∧ ¬(n.negative ∧ size = 0) ∧
      Whole.least ≤ signed ∧ signed ≤ Whole.greatest then
    .int ⟨signed, h.2.2.2.1, h.2.2.2.2⟩
  else
    match n.leading.scaled? n.negative with
    | some x => .float x
    | none => .unreadable

end NumberLiteral

end SchemaQuery
