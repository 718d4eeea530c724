import Hazard.Model.Query

set_option autoImplicit false

/-! # Remembered facts

Many questions about a unit rest on the same derived facts: what its names stand for, which
functions an entry reaches, the dominators of a flow graph, the blocks that a section guards. A
memo holds the facts derived so far, each under a key that says what it is about. Questions are
asked one after the other, each with the memo that the ones before it have left, and a question
asks others for what it needs. -/

namespace Hazard

namespace Memo

/-- The kinds of entities that are looked up by name. -/
inductive Kind where
  | binding
  | lock
  | function
  | instant
  deriving DecidableEq, Repr

/-- The entities of a kind. -/
@[reducible] def Kind.Entity : Kind → Type
  | binding => Binding
  | lock => Lock
  | function => Function
  | instant => Instant

/-- What a remembered fact is about. -/
inductive Key where
  /-- What the names of entities of one kind stand for. -/
  | names (kind : Kind)
  /-- The functions that can run once `entry` is called. -/
  | reach (entry : String)
  /-- The accesses to a binding. -/
  | accesses (binding : String)
  /-- The dominators in the flow graph of a function. -/
  | dominators (function : String)
  /-- The blocks that run only with the lock of a section held. -/
  | guarded (s : CriticalSection)
  deriving DecidableEq, Repr

/-- What is remembered under a key. -/
@[reducible] def Key.Fact : Key → Type
  | names kind => List (String × kind.Entity)
  | reach _ => List String
  | accesses _ => List (Function × Access)
  | dominators _ => DominatorTable
  | guarded _ => List Int

end Memo

/-- The facts remembered so far, latest first. -/
structure Memo where
  entries : List ((key : Memo.Key) × key.Fact) := []

namespace Memo

/-- The fact remembered under a key, among the given ones. -/
def find? (key : Key) : List ((key : Key) × key.Fact) → Option key.Fact
  | [] => none
  | ⟨other, fact⟩ :: rest => if h : other = key then some (h ▸ fact) else find? key rest

/-- The fact remembered under a key. -/
def get? (memo : Memo) (key : Key) : Option key.Fact := find? key memo.entries

/-- Remembers a fact. -/
def put (memo : Memo) (key : Key) (fact : key.Fact) : Memo := ⟨⟨key, fact⟩ :: memo.entries⟩

end Memo

/-- Asking questions, one after the other, with a memo. -/
abbrev Asking := StateM Memo

namespace Asking

/-- The fact under a key: the remembered one if there is one, and otherwise the one that is worked
    out and then remembered. -/
def remember (key : Memo.Key) (work : Asking key.Fact) : Asking key.Fact := do
  match (← get).get? key with
  | some fact => return fact
  | none =>
    let fact ← work
    modify (·.put key fact)
    return fact

/-- The items for which a question is answered with yes. -/
def keep {α : Type} (question : α → Asking Bool) : List α → Asking (List α)
  | [] => return []
  | item :: rest => do
    let yes ← question item
    let kept ← keep question rest
    return if yes then item :: kept else kept

/-- Whether a question is answered with yes for one of the items; those after it are not asked
    about. -/
def any {α : Type} (question : α → Asking Bool) : List α → Asking Bool
  | [] => return false
  | item :: rest => do
    if ← question item then return true
    any question rest

/-- Explores the waiting names as `explore` does, where the successors of a name are asked for. -/
def explore (next : String → Asking (List String)) : (room : Nat) → (waiting : List String) →
    (met : List String) → Asking (List String)
  | 0, _, _ => return []
  | _ + 1, [], _ => return []
  | room + 1, name :: waiting, met => do
    let fresh := novel id met (← next name)
    return name :: (← explore next room (waiting ++ fresh) (met ++ fresh))

variable (m : Model)

/-! ## Names -/

/-- Each name with the first entity that has it. -/
def index {α : Type} (name : α → String) (entities : List α) : List (String × α) :=
  (novel name [] entities).map fun entity => (name entity, entity)

/-- What the names of the entities of a kind stand for. -/
def indexOf : (kind : Memo.Kind) → List (String × kind.Entity)
  | .binding => index Binding.name m.bindings
  | .lock => index Lock.name m.locks
  | .function => index Function.name m.functions
  | .instant => index Instant.name m.instants

/-- The entity of a kind that a name stands for. -/
def named? (kind : Memo.Kind) (name : String) : Asking (Option kind.Entity) := do
  return (← remember (.names kind) (pure (indexOf m kind))).lookup name

/-- The function a name stands for. -/
def function? (name : String) : Asking (Option Function) := named? m .function name

/-! ## Calls and tasks -/

/-- The defined functions that a function calls. -/
def callees (name : String) : Asking (List String) := do
  match ← function? m name with
  | none => return []
  | some f => keep (fun callee => return (← function? m callee).isSome) f.calls

/-- The functions that can run once `entry` is called, in order of their distance from it. -/
def reachableFunctions (entry : String) : Asking (List String) :=
  remember (.reach entry) do
    match ← function? m entry with
    | none => return []
    | some _ => explore (callees m) m.functions.length [entry] [entry]

/-- The tasks that can run a function. -/
def tasksReaching (function : String) : Asking (List Task) :=
  keep (fun t => return decide (function ∈ (← reachableFunctions m t.entry))) m.tasks

/-- The tasks that can run a function and do not have their own copy of a binding. -/
def sharingTasks (function binding : String) : Asking (List Task) := do
  return (← tasksReaching m function).filter fun t => !t.copies binding

/-- Every access to a binding, with the function it is in. -/
def accessesOf (binding : String) : Asking (List (Function × Access)) :=
  remember (.accesses binding) (pure (m.accessesOf binding))

/-! ## Locks -/

/-- The dominators in the flow graph of a function. -/
def dominators (function : String) : Asking DominatorTable := do
  match ← function? m function with
  | none => return []
  | some f => remember (.dominators function) (pure f.graph.dominators)

/-- Whether control can reach a block of a function. -/
def isReachable (function : String) (block : Int) : Asking Bool := do
  return ((← dominators m function).lookup block).isSome

/-- The blocks that run only with the lock of a section held. -/
def guardedBlocks (s : CriticalSection) : Asking (List Int) := do
  match ← function? m s.function with
  | none => return []
  | some f =>
    remember (.guarded s) do
      return s.guardedAmong f.graph (← dominators m f.name)

/-- Whether a section of a function keeps others away from a binding in a block. -/
def guards (function : String) (block : Int) (binding : String) (s : CriticalSection) :
    Asking Bool := do
  if s.function != function then return false
  let lock ← named? m .lock s.lock
  if !lock.all (·.guards binding) then return false
  return (← guardedBlocks m s).contains block

/-- Whether a block of a function runs only with a lock held that protects a binding. -/
def isGuarded (function : String) (block : Int) (binding : String) : Asking Bool :=
  any (guards m function block binding) m.sections

/-- The accesses that happen with the lock of a section held. -/
def accessesInSection (s : CriticalSection) : Asking (List Access) := do
  match ← function? m s.function with
  | none => return []
  | some f =>
    let guarded ← guardedBlocks m s
    return f.accesses.filter fun a => guarded.contains a.block

end Asking

/-! ## Questions -/

/-- A question about a unit. -/
inductive Question where
  | binding (name : String)
  | lock (name : String)
  | function (name : String)
  | instant (name : String)
  | reachableFunctions (entry : String)
  | tasksReaching (function : String)
  | sharingTasks (function binding : String)
  | accessesOf (binding : String)
  | dominators (function : String)
  | isReachable (function : String) (block : Int)
  | guardedBlocks (s : CriticalSection)
  | isGuarded (function : String) (block : Int) (binding : String)
  | accessesInSection (s : CriticalSection)
  deriving DecidableEq, Repr

namespace Question

/-- The answers to a question. -/
@[reducible] def Answer : Question → Type
  | binding _ => Option Binding
  | lock _ => Option Lock
  | function _ => Option Function
  | instant _ => Option Instant
  | reachableFunctions _ => List String
  | tasksReaching _ => List Task
  | sharingTasks _ _ => List Task
  | accessesOf _ => List (Function × Access)
  | dominators _ => DominatorTable
  | isReachable _ _ => Bool
  | guardedBlocks _ => List Int
  | isGuarded _ _ _ => Bool
  | accessesInSection _ => List Access

/-- The answer of a unit to a question. -/
def answer (m : Model) : (q : Question) → q.Answer
  | binding name => m.binding? name
  | lock name => m.lock? name
  | function name => m.function? name
  | instant name => m.instant? name
  | reachableFunctions entry => m.reachableFunctions entry
  | tasksReaching f => m.tasksReaching f
  | sharingTasks f b => m.sharingTasks f b
  | accessesOf b => m.accessesOf b
  | dominators f => m.dominators f
  | isReachable f block => m.isReachable f block
  | guardedBlocks s => m.guardedBlocks s
  | isGuarded f block b => m.isGuarded f block b
  | accessesInSection s => m.accessesInSection s

/-- Asks a question with a memo. -/
def ask (m : Model) : (q : Question) → Asking q.Answer
  | binding name => Asking.named? m .binding name
  | lock name => Asking.named? m .lock name
  | function name => Asking.named? m .function name
  | instant name => Asking.named? m .instant name
  | reachableFunctions entry => Asking.reachableFunctions m entry
  | tasksReaching f => Asking.tasksReaching m f
  | sharingTasks f b => Asking.sharingTasks m f b
  | accessesOf b => Asking.accessesOf m b
  | dominators f => Asking.dominators m f
  | isReachable f block => Asking.isReachable m f block
  | guardedBlocks s => Asking.guardedBlocks m s
  | isGuarded f block b => Asking.isGuarded m f block b
  | accessesInSection s => Asking.accessesInSection m s

/-- Asks questions one after the other. -/
def askAll (m : Model) : List Question → Asking (List ((q : Question) × q.Answer))
  | [] => return []
  | q :: rest => do
    let a ← q.ask m
    return ⟨q, a⟩ :: (← askAll m rest)

end Question

end Hazard
