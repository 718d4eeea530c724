import Hazard.Proofs.LockState

set_option autoImplicit false

/-! # Guarded blocks and dead code

What control cannot reach should not matter. Two flow graphs that have the same blocks wherever
control can come (`FlowGraph.AgreesLive`) have the same paths from the entry, so the same blocks can
be reached and the same blocks dominate them.

The search for the blocks where a lock has been released is different, since it starts at every exit
of the section, whether or not control can reach it. Two such graphs can therefore disagree about a
guarded block, but only where an exit that is dead leads to it (`guardedBlocks_agree`). -/

namespace Hazard

namespace FlowGraph

/-- The graphs have the same size and the same entry, and the same block wherever control can come
    in the first one. -/
structure AgreesLive (g g' : FlowGraph) : Prop where
  size : g.size = g'.size
  entry : g.entry = g'.entry
  blocks : ∀ n, g.Reachable n → g.block? n = g'.block? n

namespace AgreesLive

variable {g g' : FlowGraph} (h : g.AgreesLive g')

include h

theorem contains_eq (n : Int) : g.contains n = g'.contains n := by
  rw [contains, contains, h.size]

theorem successors_eq {n : Int} (hn : g.Reachable n) : g.successors n = g'.successors n := by
  have hcontains : g.contains = g'.contains := funext h.contains_eq
  rw [successors, successors, h.blocks n hn, hcontains]

/-- The graphs have the same paths from the entry. -/
theorem path_iff (n : Int) (path : List Int) :
    g.Path g.entry n path ↔ g'.Path g'.entry n path := by
  constructor
  · intro hpath
    induction hpath with
    | start hentry =>
        rw [h.entry]
        exact Path.start (by rwa [← h.contains_eq, ← h.entry])
    | @step b c before hbefore edge ih =>
        rw [h.successors_eq ⟨before, hbefore⟩] at edge
        exact ih.step edge
  · intro hpath
    induction hpath with
    | start hentry =>
        rw [← h.entry]
        exact Path.start (by rwa [h.contains_eq, h.entry])
    | @step b c before hbefore edge ih =>
        rw [← h.successors_eq ⟨before, ih⟩] at edge
        exact ih.step edge

theorem reachable_iff (n : Int) : g.Reachable n ↔ g'.Reachable n :=
  exists_congr (h.path_iff n)

theorem dominates_iff (d n : Int) : g.Dominates d n ↔ g'.Dominates d n :=
  forall_congr' fun path => imp_congr_left (h.path_iff n path)

protected theorem symm : g'.AgreesLive g where
  size := h.size.symm
  entry := h.entry.symm
  blocks n hn := (h.blocks n ((h.reachable_iff n).mpr hn)).symm

end AgreesLive

end FlowGraph

namespace CriticalSection

variable (s : CriticalSection)

/-- Control can go from one block to another without entering the section. -/
def LeadsOut (g : FlowGraph) : Int → Int → Prop :=
  Relation.ReflTransGen fun a b => b ∈ g.successors a ∧ b ≠ s.enter

theorem released_iff (g : FlowGraph) (n : Int) :
    s.Released g n ↔ ∃ x ∈ s.exits, g.contains x = true ∧ s.LeadsOut g x n := by
  constructor
  · intro hreleased
    induction hreleased with
    | @exit n hexit hblock => exact ⟨n, hexit, hblock, Relation.ReflTransGen.refl⟩
    | step _ edge henter ih =>
        obtain ⟨x, hx, hblock, hleads⟩ := ih
        exact ⟨x, hx, hblock, hleads.tail ⟨edge, henter⟩⟩
  · rintro ⟨x, hx, hblock, hleads⟩
    induction hleads with
    | refl => exact Released.exit hx hblock
    | tail _ hstep ih => exact Released.step ih hstep.1 hstep.2

/-- From a block that control can reach, a section is left in the same ways. -/
theorem LeadsOut.of_agreesLive {s : CriticalSection} {g g' : FlowGraph} (h : g.AgreesLive g')
    {x n : Int} (hx : g.Reachable x) (hleads : s.LeadsOut g x n) :
    s.LeadsOut g' x n ∧ g.Reachable n := by
  induction hleads with
  | refl => exact ⟨Relation.ReflTransGen.refl, hx⟩
  | @tail a b _ hstep ih =>
      obtain ⟨hleads', ha⟩ := ih
      have edge' : b ∈ g'.successors a := h.successors_eq ha ▸ hstep.1
      exact ⟨hleads'.tail ⟨edge', hstep.2⟩, ha.step hstep.1⟩

theorem guardedBlocks_ascending (g : FlowGraph) : (s.guardedBlocks g).Pairwise (· < ·) := by
  have hkeys : (g.dominators.map Prod.fst).Pairwise (· < ·) := by
    rw [g.dominators_keys]
    exact g.numbers_ascending.filter _
  have hheld : ((g.dominators.filter fun row => s.enter ∈ row.2).map Prod.fst).Sublist
      (g.dominators.map Prod.fst) := List.filter_sublist.map Prod.fst
  exact (hkeys.sublist hheld).filter _

/-- A block that is guarded in one graph only is one that an exit leads to in the other, and control
    cannot reach that exit. -/
theorem exists_dead_exit {g g' : FlowGraph} (h : g.AgreesLive g') {n : Int}
    (hn : n ∈ s.guardedBlocks g) (hn' : n ∉ s.guardedBlocks g') :
    ∃ x ∈ s.exits, g'.contains x = true ∧ ¬g'.Reachable x ∧ s.LeadsOut g' x n := by
  rw [mem_guardedBlocks_iff] at hn hn'
  obtain ⟨hreach, hdom, hheld⟩ := hn
  -- Since the block is reached and dominated in both graphs, it must have been released in one.
  have hreleased : s.Released g' n := by
    by_contra hheld'
    exact hn' ⟨(h.reachable_iff n).mp hreach, (h.dominates_iff _ n).mp hdom, hheld'⟩
  obtain ⟨x, hx, hblock, hleads⟩ := (s.released_iff g' n).mp hreleased
  refine ⟨x, hx, hblock, fun hlive => hheld ?_, hleads⟩
  refine (s.released_iff g n).mpr ⟨x, hx, ?_, (hleads.of_agreesLive h.symm hlive).1⟩
  rwa [h.contains_eq]

/-- **Guarded blocks up to dead exits.** Where two graphs differ only in what control cannot reach,
    a block is guarded in both or in neither, unless an exit of the section that control cannot
    reach leads to the block in one of them. If control can reach every exit of the section that is
    a block, the guarded blocks are the same. -/
theorem guardedBlocks_agree {g g' : FlowGraph} (h : g.AgreesLive g') :
    (∀ n, ¬(n ∈ s.guardedBlocks g ↔ n ∈ s.guardedBlocks g') →
      ∃ x ∈ s.exits, g.contains x = true ∧ ¬g.Reachable x
        ∧ (s.LeadsOut g x n ∨ s.LeadsOut g' x n)) ∧
    ((∀ x ∈ s.exits, g.contains x = true → g.Reachable x) →
      s.guardedBlocks g = s.guardedBlocks g') := by
  have hdead : ∀ n, ¬(n ∈ s.guardedBlocks g ↔ n ∈ s.guardedBlocks g') →
      ∃ x ∈ s.exits, g.contains x = true ∧ ¬g.Reachable x
        ∧ (s.LeadsOut g x n ∨ s.LeadsOut g' x n) := by
    intro n hdiffer
    by_cases hn : n ∈ s.guardedBlocks g
    · have hn' : n ∉ s.guardedBlocks g' := fun hn' => hdiffer (iff_of_true hn hn')
      obtain ⟨x, hx, hblock, hunreached, hleads⟩ := s.exists_dead_exit h hn hn'
      rw [← h.contains_eq] at hblock
      rw [← h.reachable_iff] at hunreached
      exact ⟨x, hx, hblock, hunreached, Or.inr hleads⟩
    · have hn' : n ∈ s.guardedBlocks g' := by
        by_contra hn'
        exact hdiffer (iff_of_false hn hn')
      obtain ⟨x, hx, hblock, hunreached, hleads⟩ := s.exists_dead_exit h.symm hn' hn
      exact ⟨x, hx, hblock, hunreached, Or.inl hleads⟩
  refine ⟨hdead, fun hexits => ?_⟩
  refine List.Pairwise.eq_of_mem_iff (s.guardedBlocks_ascending g) (s.guardedBlocks_ascending g') ?_
  intro n
  by_contra hdiffer
  obtain ⟨x, hx, hblock, hunreached, _⟩ := hdead n hdiffer
  exact hunreached (hexits x hx hblock)

/-- Two blocks that run one after the other, and a third that is never reached and from where
    control would go on to the given blocks. -/
def withDeadBlock (edges : List Int) : FlowGraph where
  blocks := #[{ number := 0, successors := [1] }, { number := 1, exit := some .returning },
    { number := 2, successors := edges }]

/-- A section from the entry to an exit. -/
def leftAt (x : Int) : CriticalSection where
  lock := "mu"
  function := "f"
  exits := [x]

theorem successors_withDeadBlock_zero (edges : List Int) :
    (withDeadBlock edges).successors 0 = [1] := rfl

theorem successors_withDeadBlock_one (edges : List Int) :
    (withDeadBlock edges).successors 1 = [] := rfl

theorem withDeadBlock_agreesLive (edges edges' : List Int) :
    (withDeadBlock edges).AgreesLive (withDeadBlock edges') where
  size := rfl
  entry := rfl
  blocks := by
    rintro n ⟨path, hpath⟩
    have hlive : n = 0 ∨ n = 1 := by
      induction hpath with
      | start _ => exact Or.inl rfl
      | step _ edge ih =>
          rcases ih with rfl | rfl
          · rw [successors_withDeadBlock_zero] at edge
            exact Or.inr (List.mem_singleton.mp edge)
          · rw [successors_withDeadBlock_one] at edge
            simp at edge
    rcases hlive with rfl | rfl <;> rfl

/-- With an exit that is reached it does not matter where the dead block leads. With the dead block
    itself as the exit it does: block 1 is guarded or not. -/
theorem guardedBlocks_agree_withDeadBlock :
    (leftAt 1).guardedBlocks (withDeadBlock []) = (leftAt 1).guardedBlocks (withDeadBlock [1]) ∧
    (1 : Int) ∈ (leftAt 2).guardedBlocks (withDeadBlock []) ∧
    (1 : Int) ∉ (leftAt 2).guardedBlocks (withDeadBlock [1]) := by
  have hone : (withDeadBlock []).Reachable 1 :=
    ⟨[0, 1], (FlowGraph.Path.start rfl).step List.mem_cons_self⟩
  refine ⟨?_, ?_, ?_⟩
  · refine ((leftAt 1).guardedBlocks_agree (withDeadBlock_agreesLive [] [1])).2 ?_
    intro x hx _
    obtain rfl := List.mem_singleton.mp hx
    exact hone
  · refine ((leftAt 2).mem_guardedBlocks_iff _ 1).mpr ⟨hone, fun _ hpath => hpath.mem_start, ?_⟩
    intro hreleased
    obtain ⟨x, hx, _, hleads⟩ := ((leftAt 2).released_iff _ 1).mp hreleased
    obtain rfl := List.mem_singleton.mp hx
    rcases Relation.ReflTransGen.cases_head hleads with heq | ⟨b, hb, _⟩
    · cases heq
    · exact absurd hb.1 List.not_mem_nil
  · intro hguarded
    obtain ⟨_, _, hheld⟩ := ((leftAt 2).mem_guardedBlocks_iff _ 1).mp hguarded
    exact hheld (Released.step (Released.exit (List.mem_singleton_self 2) rfl) (by decide)
      (by decide))

end CriticalSection

end Hazard
