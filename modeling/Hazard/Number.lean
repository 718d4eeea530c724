import Hazard.Decimal.Layout

set_option autoImplicit false

/-! # Numbers

Clock readings, budgets and numeric settings are integers of any size or doubles. An integer and a
double are compared by their exact values. -/

namespace Hazard

/-- What is too large to be worked with. -/
inductive Overflow where
  /-- An integer beyond the range of doubles. -/
  | integer
  /-- A number of repetitions in a pattern. -/
  | repetitions
  /-- The number of a character. -/
  | codePoint
  deriving DecidableEq, Repr

/-- The wording of what is too large. -/
def Overflow.message : Overflow → String
  | integer => "int too large to convert to float"
  | repetitions => "the repetition number is too large"
  | codePoint => "Python int too large to convert to C int"

/-- The number from which on a code point is too large to be looked up. -/
def Overflow.codeLimit : Nat := 0x80000000

/-- An integer or a double. -/
inductive Number where
  | int (n : Int)
  | real (x : Float)
  deriving Repr

namespace Number

/-- The exact value. -/
def exact : Number → Binary
  | int n => .ofInt n
  | real x => .ofFloat x

/-- The strict order by exact value. -/
def lt : Number → Number → Bool
  | int a, int b => a < b
  | a, b => a.exact.lt b.exact

/-- The order by exact value; nothing is below or above what is no number. -/
def le : Number → Number → Bool
  | int a, int b => a ≤ b
  | a, b => a.exact.lt b.exact || a.exact.eq b.exact

/-- The double nearest to an integer, unless it is beyond the range of doubles. -/
def floatOfInt (n : Int) : Except Overflow Float :=
  let x := (Decimal.mk n.natAbs 0).toFloat
  match Binary.ofFloat x with
  | .finite .. => return if n < 0 then -x else x
  | _ => throw .integer

/-- The nearest double. -/
def toFloat : Number → Except Overflow Float
  | int n => floatOfInt n
  | real x => return x

/-- The difference: exact for two integers, that of the nearest doubles otherwise. -/
def sub : Number → Number → Except Overflow Number
  | int a, int b => return int (a - b)
  | a, b => return real ((← a.toFloat) - (← b.toFloat))

/-- The number to three places after the point; an integer has none to lose. -/
def toThousandths : Number → Number
  | int n => int n
  | real x =>
    match Binary.ofFloat x with
    | .finite negative m e =>
      let rounded := (Decimal.places 3 m e).toFloat
      real (if negative then -rounded else rounded)
    | _ => real x

/-- The text of a number in values and messages. -/
def text : Number → String
  | int n => toString n
  | real x => (Binary.ofFloat x).text

end Number

end Hazard
