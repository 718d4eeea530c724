import Hazard.Explore
import Hazard.Location
import Hazard.Worded

set_option autoImplicit false

/-! # Control flow graphs

A flow graph is a numbered list of basic blocks. A front-end may name blocks that do not exist, so
block numbers are integers, and an edge counts only when both of its ends are blocks of the graph:
`FlowGraph.successors` is the edge relation every analysis of this project uses. -/

namespace Hazard

/-- How control leaves a function from a block. -/
inductive ExitKind where
  | returning
  | raising
  | ending
  deriving DecidableEq, Repr

instance : Worded ExitKind where
  members := [.returning, .raising, .ending]
  word
    | .returning => "return"
    | .raising => "raise"
    | .ending => "end"

namespace ExitKind

/-- How leaving a function is described in a message, whether or not the kind of the exit is
    known. -/
def phrase : Option ExitKind → String
  | some returning => "return"
  | some raising => "propagated failure"
  | some ending => "end of scope"
  | none => "exit"

end ExitKind

/-- A basic block as a front-end describes it. -/
structure Block where
  number : Int
  successors : List Int := []
  exit : Option ExitKind := none
  location : Option Location := none
  label : Option String := none
  deriving DecidableEq, Repr

/-- Basic blocks, numbered by their position, and the number of the block where control enters. -/
structure FlowGraph where
  blocks : Array Block := #[]
  entry : Int := 0
  deriving DecidableEq, Repr

namespace FlowGraph

variable (g : FlowGraph)

/-- The graph of a function of which nothing is known: one block that runs to its end. -/
def single : FlowGraph := { blocks := #[{ number := 0, exit := some .ending }] }

/-- The number of blocks. -/
def size : Nat := g.blocks.size

/-- The numbers of all blocks, ascending. -/
def numbers : List Int := (List.range g.size).map Int.ofNat

/-- Whether `n` is the number of a block. -/
def contains (n : Int) : Bool := decide (0 ≤ n) && decide (n < g.size)

/-- The block with the given number. -/
def block? (n : Int) : Option Block := if 0 ≤ n then g.blocks[n.toNat]? else none

/-- The blocks control can pass to next, in the order in which they are listed. -/
def successors (n : Int) : List Int :=
  match g.block? n with
  | none => []
  | some b => b.successors.filter g.contains

/-- How control leaves the function from a block: as the block says, or by running to the end of a
    block with nowhere left to go. -/
def exitKind? (n : Int) : Option ExitKind :=
  match g.block? n with
  | none => none
  | some b =>
    match b.exit with
    | some kind => some kind
    | none => if (g.successors n).isEmpty then some .ending else none

/-- Whether control can leave the function from a block. -/
def isExit (n : Int) : Bool := (g.exitKind? n).isSome

/-- The exits of the function, ascending. -/
def exitBlocks : List Int := g.numbers.filter g.isExit

/-- The blocks that have `n` among their successors, ascending. -/
def predecessors (n : Int) : List Int := g.numbers.filter fun m => n ∈ g.successors m

/-- The blocks met on the way from the roots when only the edges of `next` are followed, in the
    order in which they are discovered. -/
def reach (next : Int → List Int) (roots : List Int) : List Int :=
  exploreFrom id next g.size (roots.filter g.contains)

/-- The blocks that control can reach from `start`, ascending. -/
def reachableFrom (start : Int) : List Int :=
  let found := g.reach g.successors [start]
  g.numbers.filter (· ∈ found)

/-- The blocks that control can reach from the entry, ascending. -/
def reachable : List Int := g.reachableFrom g.entry

end FlowGraph

end Hazard
