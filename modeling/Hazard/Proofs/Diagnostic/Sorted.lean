import Hazard.Diagnostic
import Hazard.Proofs.Text.Order
import Mathlib.Data.List.Forall2
import Mathlib.Data.Prod.Lex

set_option autoImplicit false

/-! # Diagnostics in order

Diagnostics are reported by place, rule, unit and message (`Diagnostic.sortKey`). The key leaves out
the levels, whether a finding is accepted, and the further facts, so that different diagnostics can
have the same key, and then the report keeps the order in which they were found.

This fixes the report: it is the only list in the order of the keys in which the diagnostics with
one key are those that were found, in the order in which they were found
(`Diagnostic.eq_of_tied_eq`, `Diagnostic.tied_sorted`). Whether two runs report the same is thus a
question about one key at a time (`Diagnostic.sorted_congr`), and what is left out of a report might
as well have been left out before (`Diagnostic.filter_sorted`). -/

namespace Hazard

/-! ## Keys -/

theorem Location.orderInt_eq_compare (a b : Int) : orderInt a b = compare a b := by
  unfold orderInt
  split
  · next h => exact (compare_lt_iff_lt.mpr h).symm
  · split
    · next h => exact (compare_gt_iff_gt.mpr h).symm
    · next h h' => exact (compare_eq_iff_eq.mpr (by omega)).symm

/-- What diagnostics are ordered by: file, line, column, rule, unit and message, of which an earlier
    one decides before a later one. Texts stand in it by their code points. -/
abbrev SortKey := Text.Key ×ₗ Int ×ₗ Int ×ₗ Text.Key ×ₗ Text.Key ×ₗ Text.Key

namespace Diagnostic

/-- The key of a diagnostic. -/
def sortKey (d : Diagnostic) : SortKey :=
  toLex (Text.key d.location.file, toLex (d.location.line, toLex (d.location.column,
    toLex (Text.key d.rule, toLex (Text.key d.unit, Text.key d.message)))))

theorem order_eq_compare (a b : Diagnostic) : order a b = compare a.sortKey b.sortKey := by
  simp only [order, Location.order, Text.order_eq_compare, Location.orderInt_eq_compare, sortKey,
    Prod.Lex.compare_def, compareLex, compareOn, ofLex_toLex, Ordering.then_assoc]

/-- Diagnostics are compared by their keys. -/
theorem le_iff (a b : Diagnostic) : le a b = true ↔ a.sortKey ≤ b.sortKey := by
  rw [← compare_le_iff_le, ← order_eq_compare]
  simp [le]

theorem unit_eq_of_sortKey_eq {a b : Diagnostic} (h : a.sortKey = b.sortKey) : a.unit = b.unit :=
  Text.codes_injective
    (congrArg (fun k : SortKey => (ofLex (ofLex (ofLex (ofLex (ofLex k).2).2).2).2).1) h)

/-! ## The report -/

theorem sorted_perm (ds : List Diagnostic) : (sorted ds).Perm ds :=
  List.mergeSort_perm ds le

/-- The keys of a list are in order. -/
def InOrder (ds : List Diagnostic) : Prop := ds.Pairwise fun a b => a.sortKey ≤ b.sortKey

theorem le_of_le_of_le (a b c : Diagnostic) (hab : le a b = true) (hbc : le b c = true) :
    le a c = true := by
  rw [le_iff] at *
  exact le_trans hab hbc

theorem le_or_le (a b : Diagnostic) : (le a b || le b a) = true := by
  rw [Bool.or_eq_true, le_iff, le_iff]
  exact le_total _ _

theorem sorted_inOrder (ds : List Diagnostic) : InOrder (sorted ds) :=
  (List.pairwise_mergeSort le_of_le_of_le le_or_le ds).imp fun h => (le_iff _ _).mp h

/-- The diagnostics with a given key. -/
def tied (k : SortKey) (ds : List Diagnostic) : List Diagnostic := ds.filter (·.sortKey = k)

/-- Diagnostics with the same key are reported as they were found. -/
theorem tied_sorted (k : SortKey) (ds : List Diagnostic) : tied k (sorted ds) = tied k ds := by
  have hkey : ∀ d ∈ tied k ds, d.sortKey = k := fun d hd => by simpa using (List.mem_filter.mp hd).2
  have hpairwise : (tied k ds).Pairwise fun a b => le a b = true := by
    refine List.pairwise_of_forall_mem_list fun a ha b hb => ?_
    rw [le_iff, hkey a ha, hkey b hb]
  have hsublist : (tied k ds).Sublist (sorted ds) :=
    List.sublist_mergeSort le_of_le_of_le le_or_le hpairwise List.filter_sublist
  -- The sorting has as many of them, so it cannot have others.
  have hsublist' : (tied k ds).Sublist (tied k (sorted ds)) := by
    have h := hsublist.filter (·.sortKey = k)
    simpa [tied, List.filter_filter] using h
  exact (hsublist'.eq_of_length ((sorted_perm ds).filter _).length_eq.symm).symm

/-- The first of a list in order comes before every key that the list has. -/
theorem InOrder.head_le {d : Diagnostic} {ds : List Diagnostic} (h : InOrder (d :: ds))
    {k : SortKey} (hk : tied k (d :: ds) ≠ []) : d.sortKey ≤ k := by
  obtain ⟨x, hx⟩ := List.exists_mem_of_ne_nil _ hk
  obtain ⟨hmem, hkey⟩ := List.mem_filter.mp hx
  obtain rfl : x.sortKey = k := by simpa using hkey
  rcases List.mem_cons.mp hmem with rfl | hmem
  · exact le_refl _
  · exact (List.pairwise_cons.mp h).1 x hmem

/-- A list in order is known by the diagnostics that it has for each key. -/
theorem eq_of_tied_eq {ds es : List Diagnostic} (hds : InOrder ds) (hes : InOrder es)
    (h : ∀ k, tied k ds = tied k es) : ds = es := by
  induction ds generalizing es with
  | nil =>
      cases es with
      | nil => rfl
      | cons e es => simpa [tied] using h e.sortKey
  | cons d ds ih =>
      cases es with
      | nil => simpa [tied] using h d.sortKey
      | cons e es =>
          -- Each list has the key of the other one's head, so that neither head comes first.
          have hle : d.sortKey ≤ e.sortKey := hds.head_le (by rw [h]; simp [tied])
          have hge : e.sortKey ≤ d.sortKey := hes.head_le (by rw [← h]; simp [tied])
          have hkey : d.sortKey = e.sortKey := le_antisymm hle hge
          have hhead : d = e := by
            have htied := h e.sortKey
            simp only [tied, List.filter_cons, hkey, decide_true, if_true] at htied
            exact (List.cons.inj htied).1
          subst hhead
          refine congrArg (d :: ·) (ih hds.of_cons hes.of_cons fun k => ?_)
          have htied := h k
          simp only [tied, List.filter_cons] at htied
          split at htied
          · exact (List.cons.inj htied).2
          · exact htied

/-- What is found in a different order is reported alike if the diagnostics with one key are found
    in the same order. -/
theorem sorted_congr {ds es : List Diagnostic} (h : ∀ k, tied k ds = tied k es) :
    sorted ds = sorted es :=
  eq_of_tied_eq (sorted_inOrder ds) (sorted_inOrder es) fun k => by rw [tied_sorted, tied_sorted, h]

/-- Leaving out diagnostics before they are put in order or afterwards comes to the same. -/
theorem filter_sorted (p : Diagnostic → Bool) (ds : List Diagnostic) :
    (sorted ds).filter p = sorted (ds.filter p) := by
  refine eq_of_tied_eq ((sorted_inOrder ds).filter p) (sorted_inOrder _) fun k => ?_
  have hcomm (es : List Diagnostic) : tied k (es.filter p) = (tied k es).filter p := by
    simp only [tied, List.filter_filter, Bool.and_comm]
  rw [hcomm, tied_sorted, tied_sorted, hcomm]

/-- The keys of a report do not depend on the order in which the diagnostics were found. -/
theorem map_sortKey_sorted {ds es : List Diagnostic} (h : ds.Perm es) :
    (sorted ds).map sortKey = (sorted es).map sortKey := by
  have hperm : (sorted ds).Perm (sorted es) :=
    (sorted_perm ds).trans (h.trans (sorted_perm es).symm)
  have hds : ((sorted ds).map sortKey).Pairwise (· ≤ ·) := List.pairwise_map.mpr (sorted_inOrder ds)
  have hes : ((sorted es).map sortKey).Pairwise (· ≤ ·) := List.pairwise_map.mpr (sorted_inOrder es)
  exact (hperm.map sortKey).eq_of_pairwise (fun a b _ _ => le_antisymm) hds hes

/-- Diagnostics that correspond to one another, with the same keys, still do so in the report. -/
theorem forall₂_sorted {R : Diagnostic → Diagnostic → Prop}
    (hkey : ∀ d e, R d e → d.sortKey = e.sortKey) {ds es : List Diagnostic}
    (h : List.Forall₂ R ds es) : List.Forall₂ R (sorted ds) (sorted es) := by
  -- The pairs are put in order by their first halves, which is the order of the second halves.
  have hzip : ∀ p ∈ ds.zip es, R p.1 p.2 := fun p hp => (List.forall₂_iff_zip.mp h).2 hp
  have hfst : ds = (ds.zip es).map Prod.fst := (List.map_fst_zip (le_of_eq h.length_eq)).symm
  have hsnd : es = (ds.zip es).map Prod.snd := (List.map_snd_zip (ge_of_eq h.length_eq)).symm
  let pairs := (ds.zip es).mergeSort fun p q => le p.1 q.1
  have hds : sorted ds = pairs.map Prod.fst := by
    conv_lhs => rw [hfst]
    exact (List.map_mergeSort (f := Prod.fst) fun p _ q _ => rfl).symm
  have hes : sorted es = pairs.map Prod.snd := by
    conv_lhs => rw [hsnd]
    refine (List.map_mergeSort fun p hp q hq => ?_).symm
    rw [Bool.eq_iff_iff, le_iff, le_iff, hkey _ _ (hzip p hp), hkey _ _ (hzip q hq)]
  rw [hds, hes, List.forall₂_map_left_iff, List.forall₂_map_right_iff, List.forall₂_same]
  exact fun p hp => hzip p (List.mem_mergeSort.mp hp)

end Diagnostic

end Hazard
