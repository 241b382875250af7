/-!
# Finite binary64 numbers

A number is kept as the bits of its encoding, the sign apart. The order of values is then the order of
the bits, and rounding is exact arithmetic on natural numbers: the least positive number is the unit,
every finite number is a whole count of units.
-/

namespace SchemaQuery

/-- The steps of the magnitude from one power of two to the next: 2⁵². -/
def Binary64.stepsPerScale : Nat := 0x10000000000000

/-- The least magnitude that stands for no finite number: 2047 · 2⁵². -/
def Binary64.magnitudeLimit : Nat := 0x7FF0000000000000

/-- A finite binary64 number: its sign, and exponent and fraction as one number. Zero has both signs. -/
structure Binary64 where
  negative : Bool
  magnitude : Nat
  isFinite : magnitude < Binary64.magnitudeLimit
  deriving DecidableEq

namespace Binary64

instance : Inhabited Binary64 := ⟨⟨false, 0, by decide⟩⟩

/-- Zero with the given sign. -/
def zero (negative : Bool) : Binary64 :=
  ⟨negative, 0, by decide⟩

/-- How often the significand is doubled, counted from the least exponent. -/
def scale (x : Binary64) : Nat :=
  x.magnitude / stepsPerScale - 1

/-- The significand, with the leading bit that the encoding of a normal number leaves out. -/
def significand (x : Binary64) : Nat :=
  x.magnitude - x.scale * stepsPerScale

/-- The size of the number, counted in the least positive number. -/
def units (x : Binary64) : Nat :=
  x.significand * Nat.pow 2 x.scale

/-- One, counted in the least positive number. -/
def unitsOfOne : Nat :=
  Nat.pow 2 1074

/-- The place of a number in the order of values. Both zeros have the same place. -/
def key (x : Binary64) : Int :=
  if x.negative then -(x.magnitude : Int) else x.magnitude

/-- Whether two numbers have the same value. -/
def sameValue (x y : Binary64) : Bool :=
  x.key == y.key

/-- The order of values. -/
def compareValue (x y : Binary64) : Ordering :=
  compare x.key y.key

/-- Whether the number is zero, of either sign. -/
def isZero (x : Binary64) : Bool :=
  x.magnitude == 0

/-- The whole number nearest to a quotient; a half goes to the even neighbour. -/
def roundQuotient (numerator denominator : Nat) : Nat :=
  let whole := numerator / denominator
  let rest := 2 * (numerator % denominator)
  if rest < denominator ∨ (rest = denominator ∧ whole % 2 = 0) then whole else whole + 1

/-- The magnitude nearest to a quotient of units, in an encoding whose exponents have no upper end. -/
def magnitudeOfUnits (numerator denominator : Nat) : Nat :=
  let scale := (numerator / denominator).log2 - 52
  scale * stepsPerScale + roundQuotient numerator (denominator * Nat.pow 2 scale)

/-- The number nearest to a quotient, unless rounding leaves the finite range. -/
def nearest? (negative : Bool) (numerator denominator : Nat) : Option Binary64 :=
  let magnitude := magnitudeOfUnits (numerator * unitsOfOne) denominator
  if h : magnitude < magnitudeLimit then some ⟨negative, magnitude, h⟩ else none

/-- The number nearest to a whole number. Beyond the finite range it is the greatest number. -/
def ofInt (n : Int) : Binary64 :=
  ⟨n < 0, min (magnitudeOfUnits (n.natAbs * unitsOfOne) 1) (magnitudeLimit - 1), by
    unfold magnitudeLimit; omega⟩

/-- Whether the number has no fractional part. -/
def isWhole (x : Binary64) : Bool :=
  x.units % unitsOfOne == 0

/-- The number without its fractional part. -/
def truncate (x : Binary64) : Int :=
  let whole := x.units / unitsOfOne
  if x.negative then -(whole : Int) else whole

/-- The product of two sizes with the sign of the first, rounded once. -/
def scaleUp? (x factor : Binary64) : Option Binary64 :=
  nearest? x.negative (x.units * factor.units) (unitsOfOne * unitsOfOne)

/-- The quotient of two sizes with the sign of the first, rounded once. -/
def scaleDown? (x divisor : Binary64) : Option Binary64 :=
  nearest? x.negative x.units divisor.units

end Binary64

end SchemaQuery
