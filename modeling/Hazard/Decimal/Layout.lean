import Hazard.Decimal.Digits

set_option autoImplicit false

/-! # The written form of doubles

Digits are written out around a decimal point while the number is neither very large nor very
small, and with a power of ten otherwise. Two formats are used: `Layout.full`, which keeps enough
digits to read the same double back, and `Layout.brief`, which keeps six. -/

namespace Hazard

/-- Where a format changes from one notation to the other. -/
structure Layout where
  /-- The least power of ten of the first digit that is written without an exponent. -/
  least : Int
  /-- The power of ten of the first digit from which on an exponent is written. -/
  limit : Int
  /-- Whether a whole number is marked by `.0`. -/
  marksWhole : Bool

namespace Layout

/-- The format of values: exact, and told apart from an integer. -/
def full : Layout := ⟨-4, 16, true⟩

/-- The format of durations in messages. -/
def brief : Layout := ⟨-4, 6, false⟩

/-- `n` zeros. -/
def zeros (n : Nat) : String := String.ofList (List.replicate n '0')

/-- An exponent: its sign and at least two digits. -/
def exponentText (e : Int) : String :=
  let digits := toString e.natAbs
  (if e < 0 then "e-" else "e+") ++ (if digits.length < 2 then "0" ++ digits else digits)

/-- Writes a decimal without a sign. -/
def write (l : Layout) (d : Decimal) : String :=
  let digits := toString d.coefficient
  let count := digits.length
  -- the power of ten of the first digit
  let top : Int := d.exponent + count - 1
  if d.coefficient = 0 then (if l.marksWhole then "0.0" else "0")
  else if top < l.least || l.limit ≤ top then
    let first := String.ofList (digits.toList.take 1)
    let rest := String.ofList (digits.toList.drop 1)
    first ++ (if rest.isEmpty then "" else "." ++ rest) ++ exponentText top
  else if top < 0 then "0." ++ zeros ((-top).toNat - 1) ++ digits
  else if 0 ≤ d.exponent then
    digits ++ zeros d.exponent.toNat ++ (if l.marksWhole then ".0" else "")
  else
    let whole := (top + 1).toNat
    String.ofList (digits.toList.take whole) ++ "." ++ String.ofList (digits.toList.drop whole)

end Layout

namespace Binary

/-- The sign as it is written. -/
def signText (negative : Bool) : String := if negative then "-" else ""

/-- The text of a number that reads back as the same double. -/
def text : Binary → String
  | notANumber => "nan"
  | infinite negative => signText negative ++ "inf"
  | finite negative m e => signText negative ++ Layout.full.write (Decimal.shortest m e)

/-- The text of a number with six leading digits. -/
def briefText : Binary → String
  | notANumber => "nan"
  | infinite negative => signText negative ++ "inf"
  | finite negative m e => signText negative ++ Layout.brief.write (Decimal.significant 6 m e)

end Binary

end Hazard
