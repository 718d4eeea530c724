set_option autoImplicit false

/-! # Sets of characters

A set of characters is given by the ranges of its code points. -/

namespace Hazard

/-- Ranges of code points, both ends included. -/
abbrev CharSet := List (Nat × Nat)

/-- Whether a character lies in one of the ranges. -/
def CharSet.has (s : CharSet) (c : Char) : Bool :=
  s.any fun (low, high) => low ≤ c.toNat && c.toNat ≤ high

end Hazard
