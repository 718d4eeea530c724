import Hazard.Decimal.Binary

set_option autoImplicit false

/-! # Decimal digits of doubles

Three ways to choose digits for a double, all from its exact value: the fewest digits that read
back as the same double, a given number of leading digits, and a given number of places after the
point. The last two round to the nearest, and a tie goes to the even digit. -/

namespace Hazard

/-- The number `coefficient · 10 ^ exponent`. -/
structure Decimal where
  coefficient : Nat
  exponent : Int
  deriving DecidableEq, Repr

/-- A quotient rounded to the nearest whole number, a tie to the even one. -/
def roundDiv (num den : Nat) : Nat :=
  let q := num / den
  let r := num % den
  if 2 * r < den then q
  else if den < 2 * r then q + 1
  else if q % 2 = 0 then q
  else q + 1

namespace Decimal

/-- How many decimal digits a number has. -/
def digitCount (n : Nat) : Nat := (Nat.toDigits 10 n).length

/-- A positive fraction, on its way to decimal digits. -/
structure Fraction where
  num : Nat
  den : Nat

namespace Fraction

/-- `mantissa · 2 ^ exponent`. -/
def ofScaled (mantissa : Nat) (exponent : Int) : Fraction :=
  let (up, down) := Binary.scale exponent
  ⟨mantissa * up, down⟩

/-- The number divided by a power of ten. -/
def shift (x : Fraction) (exponent : Int) : Fraction :=
  ⟨x.num * Nat.pow 10 (-exponent).toNat, x.den * Nat.pow 10 exponent.toNat⟩

/-- The `k` with `10 ^ (k - 1) ≤ x < 10 ^ k`, for an `x` of at least `10 ^ (-350)`. -/
def magnitude (x : Fraction) : Int :=
  (digitCount (x.num * Nat.pow 10 350 / x.den) : Int) - 350

end Fraction

/-- Drops the zeros at the end of the coefficient. At most `room` of them are looked for. -/
def trimmed : (room : Nat) → Decimal → Decimal
  | 0, d => d
  | room + 1, d =>
    if d.coefficient ≠ 0 ∧ d.coefficient % 10 = 0 then
      trimmed room ⟨d.coefficient / 10, d.exponent + 1⟩
    else d

/-- The decimal without zeros at its end. -/
def trim (d : Decimal) : Decimal := d.trimmed (digitCount d.coefficient)

/-- The numbers that read back as a double, as multiples of `2 ^ (exponent - 2)`: from halfway to
    its lower neighbour to halfway to its upper one, the ends included when the mantissa is even.
    Just above a power of two the lower neighbour is half as far away as the upper one. -/
structure Interval where
  low : Fraction
  high : Fraction
  closed : Bool

/-- The numbers that read back as `mantissa · 2 ^ exponent`. -/
def Interval.of (mantissa : Nat) (exponent : Int) : Interval :=
  let narrow := mantissa = Binary.normalMantissa ∧ exponent ≠ Binary.leastExponent
  { low := .ofScaled (4 * mantissa - (if narrow then 1 else 2)) (exponent - 2)
    high := .ofScaled (4 * mantissa + 2) (exponent - 2)
    closed := mantissa % 2 = 0 }

/-- Whether `n · 10 ^ exponent` lies in the interval. -/
def Interval.holds (i : Interval) (n : Nat) (exponent : Int) : Bool :=
  let low := i.low.shift exponent
  let high := i.high.shift exponent
  if i.closed then low.num ≤ n * low.den && n * high.den ≤ high.num
  else low.num < n * low.den && n * high.den < high.num

/-- The multiple of `10 ^ exponent` nearest to `x` among its two neighbours that lie in the
    interval. -/
def nearestIn (i : Interval) (x : Fraction) (exponent : Int) : Option Decimal :=
  let scaled := x.shift exponent
  let below := scaled.num / scaled.den
  let nearest := roundDiv scaled.num scaled.den
  if i.holds nearest exponent then some ⟨nearest, exponent⟩
  else if i.holds below exponent then some ⟨below, exponent⟩
  else if i.holds (below + 1) exponent then some ⟨below + 1, exponent⟩
  else none

/-- The fewest digits that read back as `mantissa · 2 ^ exponent`, and of those the nearest.
    Seventeen always suffice. -/
def shortest (mantissa : Nat) (exponent : Int) : Decimal :=
  if mantissa = 0 then ⟨0, 0⟩
  else
    let x := Fraction.ofScaled mantissa exponent
    let i := Interval.of mantissa exponent
    let k := x.magnitude
    let found := (List.range 17).findSome? fun n => nearestIn i x (k - (n + 1 : Nat))
    (found.getD ⟨0, 0⟩).trim

/-- The number rounded to `digits` leading digits. -/
def significant (digits : Nat) (mantissa : Nat) (exponent : Int) : Decimal :=
  if mantissa = 0 then ⟨0, 0⟩
  else
    let x := Fraction.ofScaled mantissa exponent
    let unit := x.magnitude - digits
    let scaled := x.shift unit
    (Decimal.mk (roundDiv scaled.num scaled.den) unit).trim

/-- The number rounded to `places` digits after the point. -/
def places (count : Nat) (mantissa : Nat) (exponent : Int) : Decimal :=
  let scaled := (Fraction.ofScaled mantissa exponent).shift (-(count : Int))
  ⟨roundDiv scaled.num scaled.den, -(count : Int)⟩

/-- The double nearest to a decimal. -/
def toFloat (d : Decimal) : Float :=
  if 0 ≤ d.exponent then Float.ofScientific d.coefficient false d.exponent.toNat
  else Float.ofScientific d.coefficient true (-d.exponent).toNat

end Decimal

end Hazard
