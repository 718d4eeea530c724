set_option autoImplicit false

/-! # Doubles as exact numbers

A finite double is a whole number times a power of two. All that the project does with the value
of a double, apart from subtracting two of them, is done on that exact form: comparing it with an
integer, finding its digits, rounding it to a number of places. -/

namespace Hazard

/-- The exact meaning of a double. -/
inductive Binary where
  /-- `mantissa · 2 ^ exponent`, with the sign apart so that zero keeps it. -/
  | finite (negative : Bool) (mantissa : Nat) (exponent : Int)
  | infinite (negative : Bool)
  | notANumber
  deriving DecidableEq, Repr

namespace Binary

/-- The mantissa from which on a double is normal. -/
def normalMantissa : Nat := Nat.pow 2 52

/-- The exponent of the least doubles. -/
def leastExponent : Int := -1074

/-- Reads the fields of a double. -/
def ofFloat (x : Float) : Binary :=
  let bits : Nat := x.toBits.toNat
  let negative := decide (Nat.pow 2 63 ≤ bits)
  let fraction : Nat := bits % Nat.pow 2 52
  let biased : Nat := bits / Nat.pow 2 52 % Nat.pow 2 11
  if biased = 2047 then
    if fraction = 0 then infinite negative else notANumber
  else if biased = 0 then finite negative fraction leastExponent
  else finite negative (normalMantissa + fraction) (leastExponent + biased - 1)

/-- A power of two with an integer exponent, as a numerator and a denominator. -/
def scale (exponent : Int) : Nat × Nat :=
  (Nat.pow 2 exponent.toNat, Nat.pow 2 (-exponent).toNat)

/-- Whether `a · 2 ^ p` is less than `b · 2 ^ q`. -/
def scaledLt (a : Int) (p : Int) (b : Int) (q : Int) : Bool :=
  decide (a * Nat.pow 2 (p - q).toNat < b * Nat.pow 2 (q - p).toNat)

/-- The mantissa with its sign. -/
def signed (negative : Bool) (mantissa : Nat) : Int := if negative then -mantissa else mantissa

/-- The strict order of the numbers. Nothing is less or greater than what is no number. -/
def lt : Binary → Binary → Bool
  | notANumber, _ => false
  | _, notANumber => false
  | infinite a, infinite b => a && !b
  | infinite a, finite .. => a
  | finite .., infinite b => !b
  | finite s m p, finite t n q => scaledLt (signed s m) p (signed t n) q

/-- Whether two numbers are equal; the two zeros are, and what is no number equals nothing. -/
def eq : Binary → Binary → Bool
  | notANumber, _ => false
  | _, notANumber => false
  | x, y => !x.lt y && !y.lt x

/-- An integer as an exact number. -/
def ofInt (n : Int) : Binary := finite (decide (n < 0)) n.natAbs 0

end Binary

end Hazard
