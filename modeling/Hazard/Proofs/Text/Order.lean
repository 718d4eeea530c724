import Hazard.Text.Order
import Mathlib.Data.List.Lex
import Mathlib.Data.List.Sort

set_option autoImplicit false

/-! # Texts in order

The order of texts is that of their lists of code points (`Text.codes`), from which a text can be
told (`codes_injective`). -/

namespace Hazard

theorem nodup_eraseDups {α : Type} [DecidableEq α] (xs : List α) : xs.eraseDups.Nodup := by
  induction hlen : xs.length using Nat.strong_induction_on generalizing xs with
  | _ n ih =>
      cases xs with
      | nil => simp
      | cons x xs =>
          rw [List.eraseDups_cons, List.nodup_cons]
          refine ⟨by simp, ih _ ?_ _ rfl⟩
          have hle := List.length_filter_le (fun y => !y == x) xs
          rw [← hlen, List.length_cons]
          omega

namespace Text

/-! ## Code points -/

/-- No character has a code point that is half of a pair. -/
theorem code_injective : Function.Injective code := by
  intro c d h
  have hvalid (x : Char) : x.toNat < firstHalf ∨ lastHalf < x.toNat ∧ x.toNat < 0x110000 := x.valid
  have hc := hvalid c
  have hd := hvalid d
  have hnat : c.toNat = d.toNat := by
    unfold code firstHalf halfStart at h
    unfold firstHalf lastHalf at hc hd
    by_cases hc' : 0x10F800 ≤ c.toNat <;> by_cases hd' : 0x10F800 ≤ d.toNat <;>
      simp only [hc', hd', if_true, if_false] at h <;> omega
  exact Char.ext (UInt32.toNat_inj.mp hnat)

theorem codes_injective : Function.Injective codes := fun _ _ h =>
  String.toList_injective (List.map_injective_iff.mpr code_injective h)

theorem lt_iff (a b : String) : lt a b = true ↔ codes a < codes b := decide_eq_true_iff

/-- What a text is compared by. -/
def Key : Type := List Nat

instance : LinearOrder Key := inferInstanceAs (LinearOrder (List Nat))

/-- The code points of a text, to be compared. -/
def key (s : String) : Key := codes s

theorem order_eq_compare (a b : String) : order a b = compare (key a) (key b) := by
  unfold order
  split
  · next h => exact (compare_lt_iff_lt.mpr ((lt_iff a b).mp h)).symm
  · split
    · next h => exact (compare_gt_iff_gt.mpr ((lt_iff b a).mp h)).symm
    · next h h' =>
        rw [lt_iff, not_lt] at h h'
        exact (compare_eq_iff_eq.mpr (le_antisymm h' h)).symm

theorem le_iff (a b : String) : le a b = true ↔ codes a ≤ codes b := by
  rw [le, Bool.not_eq_true', ← Bool.not_eq_true, lt_iff, not_lt]

/-! ## Sorted texts -/

theorem mem_sorted (texts : List String) (s : String) : s ∈ sorted texts ↔ s ∈ texts :=
  List.mem_mergeSort

theorem mem_sortedSet (texts : List String) (s : String) :
    s ∈ sortedSet texts ↔ s ∈ texts := by
  rw [sortedSet, sorted, List.mem_mergeSort, List.mem_eraseDups]

theorem sorted_pairwise (texts : List String) :
    (sorted texts).Pairwise fun a b => codes a ≤ codes b := by
  have hle : (sorted texts).Pairwise fun a b => le a b = true := by
    refine List.pairwise_mergeSort ?_ ?_ texts
    · intro a b c hab hbc
      rw [le_iff] at *
      exact le_trans hab hbc
    · intro a b
      rw [Bool.or_eq_true, le_iff, le_iff]
      exact le_total _ _
  exact hle.imp fun h => (le_iff _ _).mp h

/-- Different texts are put into strictly ascending order. -/
theorem sorted_ascending {texts : List String} (h : texts.Nodup) :
    (sorted texts).Pairwise fun a b => codes a < codes b := by
  have hne : (sorted texts).Nodup := (List.mergeSort_perm texts le).nodup_iff.mpr h
  exact ((sorted_pairwise texts).and hne).imp fun ⟨hle, hne⟩ =>
    lt_of_le_of_ne hle fun heq => hne (codes_injective heq)

theorem sortedSet_ascending (texts : List String) :
    (sortedSet texts).Pairwise fun a b => codes a < codes b :=
  sorted_ascending (nodup_eraseDups texts)

/-- Of two sets of texts in order, the one that is contained in the other is a part of it. -/
theorem sortedSet_sublist {xs ys : List String} (h : sortedSet xs ⊆ sortedSet ys) :
    (sortedSet xs).Sublist (sortedSet ys) := by
  have hantisymm : Std.Antisymm fun a b : String => codes a < codes b :=
    ⟨fun a b hab hba => absurd hab (lt_asymm hba)⟩
  have hnodup : (sortedSet xs).Nodup := (sortedSet_ascending xs).imp fun h => ne_of_apply_ne _ h.ne
  exact List.sublist_of_subperm_of_pairwise (List.subperm_of_subset hnodup h)
    (sortedSet_ascending xs) (sortedSet_ascending ys)

end Text

end Hazard
