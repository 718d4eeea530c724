import Hazard.Text.CharSet

set_option autoImplicit false

/-! # Blanks

The characters that may surround a written location or a number without being part of it: the
ASCII blanks and separators, and the white space of other scripts. -/

namespace Hazard.Text

/-- The ranges of blank characters. -/
def blanks : CharSet :=
  [(9, 13), (28, 32), (133, 133), (160, 160), (5760, 5760), (8192, 8202), (8232, 8233),
   (8239, 8239), (8287, 8287), (12288, 12288)]

/-- Whether a character is a blank. -/
def isBlank (c : Char) : Bool := blanks.has c

/-- The characters without those at both ends that pass a test. -/
def trim (test : Char → Bool) (cs : List Char) : List Char :=
  ((cs.dropWhile test).reverse.dropWhile test).reverse

/-- The characters without the blanks at both ends. -/
def strip (cs : List Char) : List Char := trim isBlank cs

/-- Whether a character may surround a number: a blank that is no ASCII separator. -/
def isNumberBlank (c : Char) : Bool := isBlank c && !(28 ≤ c.toNat && c.toNat ≤ 31)

end Hazard.Text
