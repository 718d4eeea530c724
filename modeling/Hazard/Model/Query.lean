import Hazard.FlowGraph.Dominance
import Hazard.FlowGraph.ExitPath
import Hazard.Model.Entity

set_option autoImplicit false

/-! # Questions about a unit

The questions that the rules ask: what a name stands for, which functions a task runs, which
blocks run with a lock held, how control can leave a function before a timer is stopped, and where
an instant lost its monotonic reading. Every answer is a function of the facts. -/

namespace Hazard

/-- The blocks that run only with the lock of a section held, for a flow graph with the given
    dominators: control has always passed through the block that takes the lock, and cannot have
    come from a block that releases it without taking the lock again. -/
def CriticalSection.guardedAmong (s : CriticalSection) (g : FlowGraph)
    (dominators : DominatorTable) : List Int :=
  let held := (dominators.filter fun (_, doms) => s.enter ∈ doms).map (·.1)
  let released := g.reach (fun n => (g.successors n).filter (· ≠ s.enter)) s.exits
  held.filter (· ∉ released)

/-- The blocks of a function that run only with the lock of a section held. -/
def CriticalSection.guardedBlocks (s : CriticalSection) (g : FlowGraph) : List Int :=
  s.guardedAmong g g.dominators

namespace Model

variable (m : Model)

/-! ## Names -/

/-- The binding a name stands for. -/
def binding? (name : String) : Option Binding := m.bindings.find? (·.name == name)

/-- The lock a name stands for. -/
def lock? (name : String) : Option Lock := m.locks.find? (·.name == name)

/-- The function a name stands for. -/
def function? (name : String) : Option Function := m.functions.find? (·.name == name)

/-- The instant a name stands for. -/
def instant? (name : String) : Option Instant := m.instants.find? (·.name == name)

/-- The location that stands for the whole unit. -/
def unitLocation : Location := .ofFile m.unit

/-- The first known location, or that of the unit. -/
def locate : List (Option Location) → Location
  | [] => m.unitLocation
  | some loc :: _ => loc
  | none :: rest => locate rest

/-! ## Calls and tasks -/

/-- The defined functions that a function calls. -/
def callees (name : String) : List String :=
  match m.function? name with
  | none => []
  | some f => f.calls.filter fun callee => (m.function? callee).isSome

/-- The functions that can run once `entry` is called, in order of their distance from it. -/
def reachableFunctions (entry : String) : List String :=
  if (m.function? entry).isSome then exploreFrom id m.callees m.functions.length [entry] else []

/-- The tasks, each with the functions that it can run. -/
def taskReach : List (Task × List String) :=
  m.tasks.map fun t => (t, m.reachableFunctions t.entry)

/-- The tasks that can run a function. -/
def tasksReaching (function : String) : List Task :=
  m.tasks.filter fun t => function ∈ m.reachableFunctions t.entry

/-- The tasks that can run a function and do not have their own copy of a binding. -/
def sharingTasks (function binding : String) : List Task :=
  (m.tasksReaching function).filter fun t => !t.copies binding

/-- The tasks that can run a function and do not have their own copy of a binding, where it is
    already known which functions the tasks can run. -/
def sharingAmong (reach : List (Task × List String)) (function binding : String) : List Task :=
  (reach.filter fun (t, names) => !t.copies binding && function ∈ names).map (·.1)

theorem sharingAmong_taskReach (function binding : String) :
    sharingAmong m.taskReach function binding = m.sharingTasks function binding := by
  simp [sharingAmong, taskReach, sharingTasks, tasksReaching, List.filter_map, Function.comp_def]

/-- Every access to a binding, with the function it is in. -/
def accessesOf (binding : String) : List (Function × Access) :=
  m.functions.flatMap fun f => (f.accesses.filter (·.binding == binding)).map fun a => (f, a)

/-- The functions registered by a call of the given kind, each with its first such
    registration. -/
def handlers (isRouter : String → Bool) : List (Registration × Function) :=
  let named := m.registrations.filter fun r => isRouter r.call && (m.function? r.handler).isSome
  (novel (·.handler) [] named).filterMap fun r => (m.function? r.handler).map fun f => (r, f)

/-! ## Locks -/

/-- The dominators in the flow graph of a function. -/
def dominators (function : String) : DominatorTable :=
  match m.function? function with
  | none => []
  | some f => f.graph.dominators

/-- Whether control can reach a block of a function. -/
def isReachable (function : String) (block : Int) : Bool :=
  (m.function? function).any (·.graph.reachable.contains block)

/-- The blocks that run only with the lock of a section held. -/
def guardedBlocks (s : CriticalSection) : List Int :=
  match m.function? s.function with
  | none => []
  | some f => s.guardedBlocks f.graph

/-- Whether a section keeps others away from a binding: its lock protects the binding, as far as
    is known. -/
def excludes (s : CriticalSection) (binding : String) : Bool :=
  (m.lock? s.lock).all (·.guards binding)

/-- Whether a block of a function runs only with a lock held that protects a binding. -/
def isGuarded (function : String) (block : Int) (binding : String) : Bool :=
  match m.function? function with
  | none => false
  | some f =>
    let dominators := f.graph.dominators
    m.sections.any fun s =>
      s.function == function && m.excludes s binding
        && (s.guardedAmong f.graph dominators).contains block

/-- A block is guarded when it is among the guarded blocks of a section of its function whose lock
    protects the binding. -/
theorem isGuarded_eq_any (function : String) (block : Int) (binding : String) :
    m.isGuarded function block binding = m.sections.any fun s =>
      s.function == function && m.excludes s binding && (m.guardedBlocks s).contains block := by
  rw [isGuarded]
  split <;> rename_i h
  · refine (List.any_eq_false.mpr fun s _ => ?_).symm
    by_cases hs : s.function = function
    · simp [hs, guardedBlocks, h]
    · simp [beq_eq_false_iff_ne.mpr hs]
  · refine congrArg m.sections.any (funext fun s => ?_)
    by_cases hs : s.function = function
    · simp [hs, guardedBlocks, h, CriticalSection.guardedBlocks]
    · simp [beq_eq_false_iff_ne.mpr hs]

/-- The accesses that happen with the lock of a section held. -/
def accessesInSection (s : CriticalSection) : List Access :=
  match m.function? s.function with
  | none => []
  | some f =>
    let guarded := m.guardedBlocks s
    f.accesses.filter fun a => guarded.contains a.block

/-! ## Time -/

/-- The ways out of a function on which a timer is not stopped. -/
def unstoppedExitPaths (t : Timer) : List (List Int) :=
  match m.function? t.function with
  | none => []
  | some f => if t.deferredStop then [] else f.graph.pathsToExits t.block t.stopBlocks

/-- The instant that an instant was derived from, if it is known. -/
def parent? (i : Instant) : Option Instant :=
  match i.derivedFrom with
  | none => none
  | some name => if name == "" then none else m.instant? name

/-- An instant followed by those it was derived from, up to the first that comes again. -/
def derivationChain (name : String) : List Instant :=
  exploreFrom (·.name) (fun i => (m.parent? i).toList) m.instants.length (m.instant? name).toList

end Model

/-- The instant of a chain of derivations at which the monotonic reading was lost: one without the
    reading that was derived from one with it, or the last of the chain if it never had it. -/
def Instant.loss? : List Instant → Option Instant
  | [] => none
  | [i] => if i.monotonic then none else some i
  | i :: parent :: rest =>
    if !i.monotonic && parent.monotonic then some i else loss? (parent :: rest)

/-- The transformation by which an instant lost its monotonic reading, if it is known. -/
def Model.strippingTransformation (m : Model) (name : String) : Option String :=
  (Instant.loss? (m.derivationChain name)).bind (·.transformation)

end Hazard
