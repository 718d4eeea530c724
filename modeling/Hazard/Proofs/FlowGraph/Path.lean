import Hazard.FlowGraph.Basic
import Hazard.Proofs.Explore

set_option autoImplicit false

/-! # Paths of a flow graph

Every question about a flow graph is a question about its paths: a path starts at a block of the
graph and follows edges, that is, successors that are blocks of the graph (`mem_successors_iff`). It
may pass through a block any number of times. A block is reachable when a path leads to it from the
entry, and the search of `FlowGraph.reach` finds just the blocks that its own edges lead to
(`mem_reach_iff`), so that `FlowGraph.reachable` lists the reachable blocks
(`mem_reachable_iff`). -/

namespace Hazard

namespace FlowGraph

variable (g : FlowGraph)

/-! ## Blocks and edges -/

theorem contains_iff (n : Int) : g.contains n = true ↔ 0 ≤ n ∧ n < g.blocks.size := by
  rw [contains, Bool.and_eq_true, decide_eq_true_eq, decide_eq_true_eq, size]

theorem mem_numbers_iff (n : Int) : n ∈ g.numbers ↔ g.contains n = true := by
  simp only [numbers, contains_iff, size, List.mem_map, List.mem_range]
  constructor
  · rintro ⟨i, hi, rfl⟩
    exact ⟨Int.natCast_nonneg i, Int.ofNat_lt.mpr hi⟩
  · rintro ⟨hnonneg, hlt⟩
    exact ⟨n.toNat, by omega, Int.toNat_of_nonneg hnonneg⟩

theorem numbers_length : g.numbers.length = g.size := by
  simp [numbers]

/-- The numbers of the blocks are in ascending order. -/
theorem numbers_ascending : g.numbers.Pairwise (· < ·) := by
  unfold numbers
  rw [List.pairwise_map]
  exact List.pairwise_lt_range.imp fun h => Int.ofNat_lt.mpr h

theorem contains_of_block? {n : Int} {b : Block} (h : g.block? n = some b) :
    g.contains n = true := by
  unfold block? at h
  split at h
  · next hnonneg =>
      obtain ⟨hlt, _⟩ := Array.getElem?_eq_some_iff.mp h
      rw [contains_iff]
      omega
  · simp at h

/-- There is an edge from `a` to `b` when the block numbered `a` lists `b` and `b` is in range. -/
theorem mem_successors_iff (a b : Int) :
    b ∈ g.successors a ↔ 0 ≤ a ∧ ∃ block, g.blocks[a.toNat]? = some block ∧
      b ∈ block.successors ∧ 0 ≤ b ∧ b < g.blocks.size := by
  unfold successors block?
  by_cases ha : 0 ≤ a
  · cases hblock : g.blocks[a.toNat]? with
    | none => simp [ha]
    | some block => simp [ha, contains_iff]
  · simp [ha]

/-- Two ways from the entry to an exit, with edges that lead to no block, and a block that nothing
    leads to. -/
def diamond : FlowGraph where
  blocks := #[{ number := 0, successors := [1, 2, 9] }, { number := 1, successors := [3] },
    { number := 2, successors := [3, -1] }, { number := 3, exit := some .returning },
    { number := 4, successors := [3] }]

example : diamond.successors 0 = [1, 2] ∧ diamond.successors 2 = [3] := by decide

/-- An edge leads to a block. -/
theorem contains_of_mem_successors {a b : Int} (h : b ∈ g.successors a) : g.contains b = true := by
  obtain ⟨_, _, _, _, hrange⟩ := (g.mem_successors_iff a b).mp h
  exact (g.contains_iff b).mpr hrange

/-- An edge starts at a block. -/
theorem contains_of_successors_mem {a b : Int} (h : b ∈ g.successors a) : g.contains a = true := by
  obtain ⟨ha, block, hblock, _⟩ := (g.mem_successors_iff a b).mp h
  exact g.contains_of_block? (b := block) (by rw [block?, if_pos ha, hblock])

theorem mem_predecessors_iff (a b : Int) : a ∈ g.predecessors b ↔ b ∈ g.successors a := by
  unfold predecessors
  rw [List.mem_filter, decide_eq_true_eq, mem_numbers_iff]
  exact ⟨And.right, fun h => ⟨g.contains_of_successors_mem h, h⟩⟩

/-! ## Searches -/

/-- A search that follows edges into blocks of the graph only finds exactly what its edges lead to
    from the roots that are blocks. -/
theorem mem_reach_iff (next : Int → List Int) (hnext : ∀ a, ∀ b ∈ next a, g.contains b = true)
    (roots : List Int) (n : Int) :
    n ∈ g.reach next roots ↔ ∃ r ∈ roots, g.contains r = true ∧
      Relation.ReflTransGen (fun a b => b ∈ next a) r n := by
  have hplaces : ∀ a ∈ g.numbers, ∀ b ∈ next a, b ∈ g.numbers :=
    fun a _ b hb => (g.mem_numbers_iff b).mpr (hnext a b hb)
  have hroots : ∀ r ∈ roots.filter g.contains, r ∈ g.numbers :=
    fun r hr => (g.mem_numbers_iff r).mpr (List.mem_filter.mp hr).2
  unfold reach
  rw [mem_exploreFrom_iff hplaces hroots (Nat.le_of_eq g.numbers_length)]
  simp only [List.mem_filter, and_assoc]

/-! ## Paths -/

/-- The list of blocks is a path from `a`, and its last block is `b`. A step follows an edge that
    the blocks list (`mem_successors_iff`). -/
inductive Path (a : Int) : Int → List Int → Prop where
  | start (h : g.contains a = true) : Path a a [a]
  | step {b c : Int} {path : List Int} (h : Path a b path) (edge : c ∈ g.successors b) :
      Path a c (path ++ [c])

theorem diamond_path {n : Int} (h : n = 1 ∨ n = 2) : diamond.Path 0 3 [0, n, 3] := by
  have hstart : diamond.Path 0 0 [0] := .start (by decide)
  rcases h with rfl | rfl
  · exact (hstart.step (c := 1) (by decide)).step (by decide)
  · exact (hstart.step (c := 2) (by decide)).step (by decide)

/-- A path leads to the block from the entry. -/
def Reachable (n : Int) : Prop := ∃ path, g.Path g.entry n path

namespace Path

variable {g} {a b : Int} {path : List Int}

theorem dropLast_append (h : g.Path a b path) : path.dropLast ++ [b] = path := by
  cases h <;> simp

theorem mem_start (h : g.Path a b path) : a ∈ path := by
  induction h with
  | start _ => exact List.mem_singleton_self a
  | step _ _ ih => exact List.mem_append_left _ ih

/-- A path is parted at the first block with some property. -/
theorem exists_first (h : g.Path a b path) {P : Int → Prop} (hP : ∃ n ∈ path, P n) :
    ∃ n before after, g.Path a n before ∧ g.Path n b after ∧ before <+: path ∧ P n ∧
      ∀ m ∈ before.dropLast, ¬P m := by
  induction h with
  | start ha =>
      obtain ⟨n, hn, hPn⟩ := hP
      obtain rfl := List.mem_singleton.mp hn
      exact ⟨n, [n], [n], Path.start ha, Path.start ha, List.prefix_rfl, hPn, by simp⟩
  | @step b c path hpath edge ih =>
      by_cases hearlier : ∃ n ∈ path, P n
      · obtain ⟨n, before, after, hbefore, hafter, hle, hPn, hfirst⟩ := ih hearlier
        exact ⟨n, before, after ++ [c], hbefore, hafter.step edge,
          hle.trans (List.prefix_append path [c]), hPn, hfirst⟩
      · obtain ⟨n, hn, hPn⟩ := hP
        rcases List.mem_append.mp hn with hn | hn
        · exact absurd ⟨n, hn, hPn⟩ hearlier
        · obtain rfl := List.mem_singleton.mp hn
          refine ⟨n, path ++ [n], [n], hpath.step edge,
            Path.start (g.contains_of_mem_successors edge), List.prefix_rfl, hPn, ?_⟩
          intro m hm hPm
          rw [List.dropLast_concat] at hm
          exact hearlier ⟨m, hm, hPm⟩

/-- Every block on a path is reached by a path from the same start. -/
theorem exists_of_mem (h : g.Path a b path) {n : Int} (hn : n ∈ path) :
    ∃ before, g.Path a n before := by
  obtain ⟨_, before, _, hbefore, _, _, rfl, _⟩ := h.exists_first ⟨n, hn, rfl⟩
  exact ⟨before, hbefore⟩

/-- Without its loops, a path leads to the same block and passes through no block twice. -/
theorem exists_simple (h : g.Path a b path) :
    ∃ simple, g.Path a b simple ∧ simple.Nodup ∧ simple.Sublist path := by
  induction h with
  | start ha => exact ⟨[a], Path.start ha, by simp, List.Sublist.refl _⟩
  | @step b c path hpath edge ih =>
      obtain ⟨simple, hsimple, hnodup, hsub⟩ := ih
      by_cases hc : c ∈ simple
      · -- The way back to `c` is left out, which ends the path at its first visit.
        obtain ⟨_, before, _, hbefore, _, hle, rfl, _⟩ := hsimple.exists_first ⟨c, hc, rfl⟩
        exact ⟨before, hbefore, hnodup.sublist hle.sublist,
          (hle.sublist.trans hsub).trans (List.sublist_append_left path [_])⟩
      · refine ⟨simple ++ [c], hsimple.step edge, ?_, hsub.append (List.Sublist.refl [c])⟩
        exact List.nodup_append.mpr ⟨hnodup, by simp, fun x hx y hy hxy =>
          hc (List.mem_singleton.mp hy ▸ hxy ▸ hx)⟩

/-- Paths from a block are what following its edges amounts to. -/
theorem exists_iff (a n : Int) :
    (∃ path, g.Path a n path) ↔
      g.contains a = true ∧ Relation.ReflTransGen (fun a b => b ∈ g.successors a) a n := by
  constructor
  · rintro ⟨path, h⟩
    induction h with
    | start ha => exact ⟨ha, Relation.ReflTransGen.refl⟩
    | step _ edge ih => exact ⟨ih.1, ih.2.tail edge⟩
  · rintro ⟨ha, hreach⟩
    induction hreach with
    | refl => exact ⟨[a], Path.start ha⟩
    | tail _ edge ih =>
        obtain ⟨path, hpath⟩ := ih
        exact ⟨_, hpath.step edge⟩

end Path

/-- The search from a block lists exactly the blocks that paths lead to from it. -/
theorem mem_reach_successors_iff (start n : Int) :
    n ∈ g.reach g.successors [start] ↔ ∃ path, g.Path start n path := by
  rw [mem_reach_iff g g.successors (fun _ _ hb => g.contains_of_mem_successors hb),
    Path.exists_iff]
  simp

theorem mem_reachableFrom_iff (start n : Int) :
    n ∈ g.reachableFrom start ↔ ∃ path, g.Path start n path := by
  unfold reachableFrom
  rw [List.mem_filter, decide_eq_true_eq, mem_reach_successors_iff, mem_numbers_iff]
  constructor
  · exact And.right
  · rintro ⟨path, h⟩
    refine ⟨?_, path, h⟩
    cases h with
    | start hstart => exact hstart
    | step _ edge => exact g.contains_of_mem_successors edge

theorem mem_reachable_iff (n : Int) : n ∈ g.reachable ↔ g.Reachable n :=
  g.mem_reachableFrom_iff g.entry n

instance (n : Int) : Decidable (g.Reachable n) := decidable_of_iff _ (g.mem_reachable_iff n)

theorem reachable_nodup : g.reachable.Nodup := by
  unfold reachable reachableFrom
  exact (g.numbers_ascending.imp fun h => Int.ne_of_lt h).filter _

theorem Reachable.step {g : FlowGraph} {a b : Int} (h : g.Reachable a) (edge : b ∈ g.successors a) :
    g.Reachable b := by
  obtain ⟨path, hpath⟩ := h
  exact ⟨path ++ [b], hpath.step edge⟩

end FlowGraph

end Hazard
