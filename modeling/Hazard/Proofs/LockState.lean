import Hazard.Model.Query
import Hazard.Proofs.FlowGraph.Dominance
import Mathlib.Data.List.Induction

set_option autoImplicit false

/-! # Guarded blocks are those reached with the lock held

The meaning of a critical section is a lock that changes its state along a path: arriving at an exit
of the section releases it, arriving at the block where the section is entered takes it, and any
other block leaves it alone. A block is guarded when the lock is held at the end of every path to
it.

`CriticalSection.guardedBlocks` decides this without looking at paths, from two searches: the blocks
dominated by the entering one, and the blocks that an exit leads to without entering again
(`CriticalSection.Released`). The bridge is a fact about a single path: if the path has been through
the entering block and ends with the lock released, its last block is one that an exit leads to
(`released_of_heldAfter`). The search for released blocks also starts at exits that no path reaches,
so that it may find more than the paths do; the converse needs the exits to be reachable. -/

namespace Hazard

namespace CriticalSection

variable (s : CriticalSection) (g : FlowGraph)

/-! ## The lock along a path -/

/-- The state of the lock after arriving at a block. -/
def arrive (held : Bool) (n : Int) : Bool :=
  if n ∈ s.exits then false else if n = s.enter then true else held

/-- Whether the lock is held at the end of a path, where it is released before the first block. -/
def heldAfter (path : List Int) : Bool := path.foldl s.arrive false

/-- The lock is held at the end of every path from the entry to the block. -/
def AlwaysHeld (n : Int) : Prop := ∀ path, g.Path g.entry n path → s.heldAfter path = true

@[simp] theorem heldAfter_nil : s.heldAfter [] = false := rfl

@[simp] theorem heldAfter_snoc (path : List Int) (n : Int) :
    s.heldAfter (path ++ [n]) = s.arrive (s.heldAfter path) n := by
  simp [heldAfter]

theorem arrive_exit {held : Bool} {n : Int} (h : n ∈ s.exits) : s.arrive held n = false := by
  simp [arrive, h]

theorem arrive_other {held : Bool} {n : Int} (hexit : n ∉ s.exits) (henter : n ≠ s.enter) :
    s.arrive held n = held := by
  simp [arrive, hexit, henter]

/-- A released lock stays released until the section is entered. -/
theorem arrive_released {n : Int} (h : n ≠ s.enter) : s.arrive false n = false := by
  simp [arrive, h]

/-- Nothing but the entering block takes the lock. -/
theorem enter_mem_of_heldAfter (path : List Int) (h : s.heldAfter path = true) :
    s.enter ∈ path := by
  induction path using List.reverseRecOn with
  | nil => simp at h
  | append_singleton path n ih =>
      rw [heldAfter_snoc] at h
      by_cases hexit : n ∈ s.exits
      · rw [s.arrive_exit hexit] at h
        simp at h
      · by_cases henter : n = s.enter
        · exact List.mem_append_right _ (by simp [henter])
        · rw [s.arrive_other hexit henter] at h
          exact List.mem_append_left _ (ih h)

/-! ## The blocks that an exit leads to -/

/-- An exit of the section leads to the block without entering the section again. -/
inductive Released : Int → Prop where
  | exit {n : Int} (h : n ∈ s.exits) (hblock : g.contains n = true) : Released n
  | step {a b : Int} (h : Released a) (edge : b ∈ g.successors a) (henter : b ≠ s.enter) :
      Released b

theorem mem_reach_exits_iff (n : Int) :
    n ∈ g.reach (fun a => (g.successors a).filter (· ≠ s.enter)) s.exits ↔ s.Released g n := by
  have hedge : ∀ a b : Int, b ∈ (g.successors a).filter (· ≠ s.enter) ↔
      b ∈ g.successors a ∧ b ≠ s.enter := by
    intro a b
    rw [List.mem_filter, decide_eq_true_eq]
  rw [g.mem_reach_iff _ fun a b hb => g.contains_of_mem_successors ((hedge a b).mp hb).1]
  constructor
  · rintro ⟨r, hr, hblock, hreach⟩
    induction hreach with
    | refl => exact Released.exit hr hblock
    | @tail a b _ hb ih =>
        obtain ⟨edge, henter⟩ := (hedge a b).mp hb
        exact Released.step ih edge henter
  · intro h
    induction h with
    | @exit n h hblock => exact ⟨n, h, hblock, Relation.ReflTransGen.refl⟩
    | @step a b _ edge henter ih =>
        obtain ⟨r, hr, hblock, hreach⟩ := ih
        exact ⟨r, hr, hblock, hreach.tail ((hedge a b).mpr ⟨edge, henter⟩)⟩

theorem mem_guardedBlocks_iff (n : Int) :
    n ∈ s.guardedBlocks g ↔ g.Reachable n ∧ g.Dominates s.enter n ∧ ¬ s.Released g n := by
  have hkeys := g.narrowing_dominators.keys
  have hnodup : (g.dominators.map Prod.fst).Nodup := hkeys ▸ g.reachable_nodup
  unfold guardedBlocks guardedAmong
  rw [List.mem_filter, decide_eq_true_eq, mem_reach_exits_iff, List.mem_map, ← and_assoc]
  refine and_congr_left' ⟨?_, ?_⟩
  · rintro ⟨⟨m, doms⟩, hrow, rfl⟩
    obtain ⟨hmem, henter⟩ := List.mem_filter.mp hrow
    have hreach : g.Reachable m :=
      (g.mem_reachable_iff m).mp (hkeys ▸ List.mem_map_of_mem hmem)
    rw [decide_eq_true_eq, ← DominatorTable.of_eq_of_mem _ hnodup hmem,
      g.mem_of_dominators_iff hreach] at henter
    exact ⟨hreach, henter⟩
  · rintro ⟨hreach, henter⟩
    have hkey : n ∈ g.dominators.map Prod.fst := hkeys ▸ (g.mem_reachable_iff n).mpr hreach
    obtain ⟨⟨m, doms⟩, hmem, rfl⟩ := List.mem_map.mp hkey
    refine ⟨(m, doms), List.mem_filter.mpr ⟨hmem, ?_⟩, rfl⟩
    rw [decide_eq_true_eq, ← DominatorTable.of_eq_of_mem _ hnodup hmem,
      g.mem_of_dominators_iff hreach]
    exact henter

/-! ## Paths and released blocks -/

/-- A path that has been through the entering block and ends with the lock released ends at a block
    that an exit leads to. -/
theorem released_of_heldAfter {n : Int} {path : List Int} (h : g.Path g.entry n path)
    (henter : s.enter ∈ path) (hheld : s.heldAfter path = false) : s.Released g n := by
  induction h with
  | start hblock =>
      have hentry : g.entry = s.enter := (List.mem_singleton.mp henter).symm
      have hexit : g.entry ∈ s.exits := by
        by_contra hexit
        simp [heldAfter, arrive, hexit, hentry.symm] at hheld
      exact Released.exit hexit hblock
  | @step b c before hbefore edge ih =>
      rw [heldAfter_snoc] at hheld
      by_cases hexit : c ∈ s.exits
      · exact Released.exit hexit (g.contains_of_mem_successors edge)
      · by_cases hc : c = s.enter
        · -- Arriving at the entering block takes the lock.
          subst hc
          simp [arrive, hexit] at hheld
        · rw [s.arrive_other hexit hc] at hheld
          have hbefore : s.enter ∈ before := by simpa [Ne.symm hc] using henter
          exact Released.step (ih hbefore hheld) edge hc

/-- From a reachable exit, a path leads to every released block that ends with the lock released. -/
theorem exists_path_of_released (hexits : ∀ x ∈ s.exits, g.contains x = true → g.Reachable x)
    {n : Int} (h : s.Released g n) :
    ∃ path, g.Path g.entry n path ∧ s.heldAfter path = false := by
  induction h with
  | @exit n hexit hblock =>
      -- Any path will do, since arriving at the exit releases the lock.
      obtain ⟨path, hpath⟩ := hexits n hexit hblock
      refine ⟨path, hpath, ?_⟩
      cases hpath with
      | start _ => simp [heldAfter, s.arrive_exit hexit]
      | step _ _ => rw [heldAfter_snoc, s.arrive_exit hexit]
  | @step a b _ edge henter ih =>
      obtain ⟨path, hpath, hheld⟩ := ih
      exact ⟨path ++ [b], hpath.step edge, by rw [heldAfter_snoc, hheld, s.arrive_released henter]⟩

/-- **The meaning of guarded blocks.** A guarded block is reachable, and the lock is held at the end
    of every path to it. Where every exit of the section that is a block can be reached, these are
    all such blocks. -/
theorem guardedBlocks_eq_alwaysHeld :
    (∀ n ∈ s.guardedBlocks g, g.Reachable n ∧ s.AlwaysHeld g n) ∧
    ((∀ x ∈ s.exits, g.contains x = true → g.Reachable x) →
      ∀ n, g.Reachable n → s.AlwaysHeld g n → n ∈ s.guardedBlocks g) := by
  constructor
  · intro n hn
    obtain ⟨hreach, hdom, hreleased⟩ := (s.mem_guardedBlocks_iff g n).mp hn
    refine ⟨hreach, fun path hpath => ?_⟩
    by_contra hheld
    exact hreleased (s.released_of_heldAfter g hpath (hdom path hpath) (by simpa using hheld))
  · intro hexits n hreach hheld
    refine (s.mem_guardedBlocks_iff g n).mpr ⟨hreach, ?_, ?_⟩
    · intro path hpath
      exact s.enter_mem_of_heldAfter path (hheld path hpath)
    · intro hreleased
      obtain ⟨path, hpath, hfree⟩ := s.exists_path_of_released g hexits hreleased
      rw [hheld path hpath] at hfree
      simp at hfree

/-- A loop that takes its lock in block 1 and releases it in block 3, from where it starts over or
    ends. -/
def relockingLoop : FlowGraph where
  blocks := #[{ number := 0, successors := [1] }, { number := 1, successors := [2] },
    { number := 2, successors := [3] }, { number := 3, successors := [1, 4] }, { number := 4 }]

/-- The section of the loop. -/
def relocked : CriticalSection where
  lock := "mu"
  function := "f"
  enter := 1
  exits := [3]

/-- Each time around, the lock is held again from block 1 on. -/
theorem guardedBlocks_relockingLoop : (1 : Int) ∈ relocked.guardedBlocks relockingLoop := by
  have hthree : relockingLoop.Path 0 3 [0, 1, 2, 3] :=
    (((FlowGraph.Path.start (by decide)).step (by decide)).step (by decide)).step (by decide)
  refine (guardedBlocks_eq_alwaysHeld relocked relockingLoop).2 ?_ 1 ?_ ?_
  · intro x hx _
    obtain rfl : x = 3 := List.mem_singleton.mp hx
    exact ⟨_, hthree⟩
  · exact hthree.exists_of_mem (by decide)
  · intro path hpath
    cases hpath with
    | step _ _ =>
        rw [heldAfter_snoc]
        rfl

end CriticalSection

end Hazard
