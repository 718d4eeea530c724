import Hazard.Text.Surrogate

set_option autoImplicit false

/-! # The order of texts

Texts are ordered by their code points, the shorter of two first where one begins the other. A
character that stands for half of a pair comes where the half does. -/

namespace Hazard.Text

/-- The code points of a text. -/
def codes (s : String) : List Nat := s.toList.map code

/-- Whether the first text comes strictly before the second. -/
def lt (a b : String) : Bool := codes a < codes b

/-- Whether the first text comes before the second or equals it. -/
def le (a b : String) : Bool := !lt b a

/-- How two texts compare. -/
def order (a b : String) : Ordering :=
  if lt a b then .lt else if lt b a then .gt else .eq

/-- The texts in order. -/
def sorted (texts : List String) : List String := texts.mergeSort le

/-- The texts in order, each of them once. -/
def sortedSet (texts : List String) : List String := sorted texts.eraseDups

end Hazard.Text
