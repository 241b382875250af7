import SchemaQuery.Json.Binary64

/-!
# Decimal text of binary64 numbers

Writing takes the fewest digits that read back as the number. Reading comes in two forms: `Decimal.nearest?`
rounds the exact value once, `Decimal.scaled?` rounds the leading digits and then scales them by a
power of ten.
-/

namespace SchemaQuery

/-- A number in decimal: `coefficient · 10 ^ exponent`. -/
structure Decimal where
  coefficient : Nat
  exponent : Int
  deriving DecidableEq

namespace Decimal

/-- The count of decimal digits of a number; zero has one. -/
def digitCount (n : Nat) : Nat :=
  (Nat.toDigits 10 n).length

/-- Powers of ten above the finite range leave it whatever the coefficient is. -/
def powerLimit : Nat := 310

/-- The binary64 number nearest to the decimal number, unless that leaves the finite range. -/
def nearest? (negative : Bool) (d : Decimal) : Option Binary64 :=
  let top := d.exponent + digitCount d.coefficient
  if d.coefficient = 0 ∨ top < -400 then some (.zero negative)
  else if top > powerLimit then none
  else Binary64.nearest? negative (d.coefficient * Nat.pow 10 d.exponent.toNat)
    (Nat.pow 10 (-d.exponent).toNat)

/-- The binary64 number nearest to a power of ten; powers up to 308 are finite. -/
def powerOfTen (exponent : Nat) : Binary64 :=
  Binary64.ofInt (Nat.pow 10 exponent)

/-- Lowers a number by powers of ten of at most `10 ^ 308`, rounding after each. -/
def lower? (x : Binary64) (exponent : Nat) : Option Binary64 :=
  if x.isZero then some x
  else if exponent ≤ 308 then x.scaleDown? (powerOfTen exponent)
  else (x.scaleDown? (powerOfTen 308)).bind (lower? · (exponent - 308))
termination_by exponent

/-- The coefficient rounded, then scaled by the rounded power of ten. For short coefficients and
small powers this is `nearest?`; otherwise it may end a neighbour away. -/
def scaled? (negative : Bool) (d : Decimal) : Option Binary64 :=
  let start : Binary64 := { Binary64.ofInt d.coefficient with negative := negative }
  match d.exponent with
  | .ofNat exponent =>
    if start.isZero then some start
    else if exponent ≤ 308 then start.scaleUp? (powerOfTen exponent)
    else none
  | .negSucc less => lower? start (less + 1)

/-- Drops trailing zeros of the coefficient. -/
def trim (d : Decimal) : Decimal :=
  if h : 0 < d.coefficient ∧ d.coefficient % 10 = 0 then
    trim ⟨d.coefficient / 10, d.exponent + 1⟩
  else d
termination_by d.coefficient
decreasing_by exact Nat.div_lt_self h.1 (by decide)

/-- The exponent of the leading decimal digit of a number that is not zero. -/
def leadingExponent (x : Binary64) : Int :=
  digitCount (x.units * Nat.pow 10 400 / Binary64.unitsOfOne) - 401

/-- The decimal numbers on the grid of a power of ten that read back as the number: a lower and an
upper neighbour are tried, of two the nearer is taken, of two equally near the even one. -/
def onGrid? (x : Binary64) (grid : Int) : Option Decimal :=
  let width := Nat.pow 2 x.scale
  let up := Nat.pow 10 grid.toNat * (4 * Binary64.unitsOfOne)
  let down := Nat.pow 10 (-grid).toNat
  let value := 4 * x.units * down
  let high := value + 2 * width * down
  let gap := if x.scale ≠ 0 ∧ x.significand = Binary64.stepsPerScale then 1 else 2
  let low := value - gap * width * down
  let ends := x.significand % 2 == 0
  let readsBack (n : Nat) : Bool :=
    if ends then low ≤ n * up && n * up ≤ high else low < n * up && n * up < high
  let floor := value / up
  let below := value - floor * up
  let above := (floor + 1) * up - value
  match readsBack floor, readsBack (floor + 1) with
  | true, true =>
    if below < above ∨ (below = above ∧ floor % 2 = 0) then some ⟨floor, grid⟩
    else some ⟨floor + 1, grid⟩
  | true, false => some ⟨floor, grid⟩
  | false, true => some ⟨floor + 1, grid⟩
  | false, false => none

/-- The decimal number of fewest digits that reads back as the number, searched from `count` digits
upwards; 17 digits always suffice. -/
def shortestFrom (x : Binary64) (top : Int) : (more count : Nat) → Decimal
  | 0, _ => ⟨0, 0⟩
  | more + 1, count =>
    match onGrid? x (top + 1 - count) with
    | some d => d.trim
    | none => shortestFrom x top more (count + 1)

/-- The decimal number of fewest digits that reads back as the number. -/
def shortest (x : Binary64) : Decimal :=
  if x.isZero then ⟨0, 0⟩ else shortestFrom x (leadingExponent x) 17 1

end Decimal

/-- The text of a number: the fewest digits that read back, positional while the exponent of the
leading digit lies in -5 … 15, and never without a point or an exponent. -/
def Binary64.toText (x : Binary64) : String :=
  let sign := if x.negative then "-" else ""
  if x.isZero then sign ++ "0.0"
  else
    let d := Decimal.shortest x
    let digits := Nat.toDigits 10 d.coefficient
    let top : Int := d.exponent + digits.length - 1
    let zeros (count : Int) : List Char := List.replicate count.toNat '0'
    let body : List Char :=
      if 0 ≤ top ∧ top ≤ 15 then
        if 0 ≤ d.exponent then digits ++ zeros d.exponent ++ ['.', '0']
        else digits.take (top.toNat + 1) ++ ['.'] ++ digits.drop (top.toNat + 1)
      else if -5 ≤ top ∧ top < 0 then ['0', '.'] ++ zeros (-top - 1) ++ digits
      else
        let tail := match digits with
          | [] | [_] => digits
          | first :: rest => first :: '.' :: rest
        let exponent := Nat.toDigits 10 top.natAbs
        tail ++ ['e', if top < 0 then '-' else '+'] ++ exponent
    sign ++ String.ofList body

end SchemaQuery
