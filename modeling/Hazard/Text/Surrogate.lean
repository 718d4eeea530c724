set_option autoImplicit false

/-! # Halves of pairs

A text can hold a code point that is only one half of a pair of code units, when an escape names it.
No character has such a code point, so the last characters of the code space, which are for private
use, stand for the halves. -/

namespace Hazard.Text

/-- The first code point that is a half of a pair. -/
def firstHalf : Nat := 0xD800

/-- The last code point that is a half of a pair. -/
def lastHalf : Nat := 0xDFFF

/-- The first character that stands for a half. -/
def halfStart : Nat := 0x10F800

/-- The character that stands for a code point. -/
def ofCode (code : Nat) : Char :=
  if firstHalf ≤ code && code ≤ lastHalf then Char.ofNat (halfStart + (code - firstHalf))
  else Char.ofNat code

/-- The code point that a character stands for. -/
def code (c : Char) : Nat :=
  if halfStart ≤ c.toNat then firstHalf + (c.toNat - halfStart) else c.toNat

/-- Whether a character stands for a half. -/
def isHalf (c : Char) : Bool := halfStart ≤ c.toNat

end Hazard.Text
