import Hazard.FlowGraph.Basic

set_option autoImplicit false

/-! # Shortest paths to the exits

The search explores trails, which are paths from a fixed start that remember every block on the
way. A trail ends at the first exit it meets and never enters a blocked block. Trails are explored
in order of their length, so the first trail found to a block is a shortest one. -/

namespace Hazard

/-- A path of blocks, written from its last block back to its first. -/
structure Trail where
  last : Int
  before : List Int := []
  deriving DecidableEq, Repr

namespace Trail

/-- The path continued by one more block. -/
def extend (t : Trail) (n : Int) : Trail := ⟨n, t.last :: t.before⟩

/-- The blocks of the path from first to last. -/
def blocks (t : Trail) : List Int := (t.last :: t.before).reverse

@[simp] theorem blocks_extend (t : Trail) (n : Int) : (t.extend n).blocks = t.blocks ++ [n] := by
  simp [extend, blocks]

end Trail

namespace FlowGraph

variable (g : FlowGraph)

/-- The trails one block longer: none from an exit, and none into a blocked block. -/
def continuations (blocked : List Int) (t : Trail) : List Trail :=
  if g.isExit t.last then []
  else ((g.successors t.last).filter (· ∉ blocked)).map t.extend

/-- A shortest trail from `start` to every block met before or at the first exit. -/
def trails (start : Int) (blocked : List Int) : List Trail :=
  if g.contains start && start ∉ blocked then
    exploreFrom Trail.last (g.continuations blocked) g.size [⟨start, []⟩]
  else []

/-- For every exit that can be reached from `start` without entering a blocked block or another
    exit, a shortest such path. The paths are in ascending order of their exits. -/
def pathsToExits (start : Int) (blocked : List Int) : List (List Int) :=
  let found := g.trails start blocked
  g.exitBlocks.filterMap fun e => (found.find? (·.last = e)).map Trail.blocks

end FlowGraph

end Hazard
