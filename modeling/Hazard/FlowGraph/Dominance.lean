import Hazard.FlowGraph.Basic
import Std.Data.HashSet

set_option autoImplicit false

/-! # Dominators

A block `d` dominates a block `n` when control cannot reach `n` without passing through `d`. The
dominator sets are found by narrowing: every reachable block starts with all reachable blocks as
its candidates (the entry with itself alone), and a candidate of `n` survives only while it is `n`
or still a candidate of every predecessor of `n`. A block is looked at again whenever the
candidates of one of its predecessors have shrunk. -/

namespace Hazard

/-- The candidate dominators of each block, by block number. -/
abbrev DominatorTable := List (Int × List Int)

namespace DominatorTable

/-- The candidates of a block; a block that is not in the table has none. -/
def of (t : DominatorTable) (n : Int) : List Int := (t.lookup n).getD []

/-- Replaces the candidates of a block of the table. -/
def set (t : DominatorTable) (n : Int) (doms : List Int) : DominatorTable :=
  match t with
  | [] => []
  | (m, old) :: rest =>
    if m == n then (m, doms) :: rest else (m, old) :: DominatorTable.set rest n doms

/-- The number of candidates in the whole table. -/
def weight : DominatorTable → Nat
  | [] => 0
  | (_, doms) :: rest => doms.length + weight rest

/-- Narrowing the candidates of one block makes the table lighter. -/
theorem weight_set_lt (t : DominatorTable) (n : Int) (keep : Int → Bool)
    (h : (t.of n).filter keep ≠ t.of n) : (t.set n ((t.of n).filter keep)).weight < t.weight := by
  induction t with
  | nil => simp [of] at h
  | cons row rest ih =>
    obtain ⟨m, old⟩ := row
    by_cases hm : m = n
    · subst hm
      simp only [of, List.lookup_cons, beq_self_eq_true, Option.getD_some] at h ⊢
      simp only [set, weight, beq_self_eq_true, ↓reduceIte]
      have hlen : (old.filter keep).length ≠ old.length := fun hl =>
        h (List.filter_eq_self.mpr (List.length_filter_eq_length_iff.mp hl))
      have hle := List.length_filter_le keep old
      omega
    · have hmn : (n == m) = false := by simp [Ne.symm hm]
      simp only [of, List.lookup_cons, hmn] at h ⊢
      have := ih h
      simp only [of] at this
      simp only [set, weight, beq_iff_eq, hm, if_false]
      omega

end DominatorTable

namespace FlowGraph

variable (g : FlowGraph)

/-- The candidates of the predecessors of a block, as far as the table has them. They are sets here,
    since every candidate of the block is looked for among them. -/
def incoming (t : DominatorTable) (n : Int) : List (Std.HashSet Int) :=
  (g.predecessors n).filterMap fun p => (t.lookup p).map Std.HashSet.ofList

/-- Whether `d` remains a candidate of `n`: it is `n` itself, or a candidate of every
    predecessor. -/
def survives (incoming : List (Std.HashSet Int)) (n d : Int) : Bool :=
  d == n || incoming.all (·.contains d)

/-- Narrows the candidates of the waiting blocks until nothing changes. -/
def narrow (t : DominatorTable) (waiting : List Int) : DominatorTable :=
  match waiting with
  | [] => t
  | n :: rest =>
    let keep := survives (g.incoming t n) n
    if (t.of n).filter keep = t.of n then narrow t rest
    else
      let affected := (g.successors n).filter (· ≠ g.entry)
      narrow (t.set n ((t.of n).filter keep)) (rest ++ novel id rest affected)
termination_by (t.weight, waiting.length)
decreasing_by
  · exact Prod.Lex.right _ (by simp)
  · exact Prod.Lex.left _ _ (t.weight_set_lt n _ (by assumption))

/-- The dominators of every reachable block, both ascending. The blocks are first looked at in the
    order in which a search from the entry meets them, so that most are settled at once. -/
def dominators : DominatorTable :=
  let live := g.reachable
  let start := live.map fun n => (n, if n = g.entry then [n] else live)
  g.narrow start ((g.reach g.successors [g.entry]).filter (· ≠ g.entry))

end FlowGraph

end Hazard
