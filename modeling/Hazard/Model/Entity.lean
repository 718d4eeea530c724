import Hazard.Waiver
import Hazard.FlowGraph.Basic

set_option autoImplicit false

/-! # The facts about a unit

A front-end reports what one unit of source code has to do with concurrency: its storage, locks
and functions, the sections that hold a lock, the tasks it starts, and its channels, concurrent
maps, timers and instants. Entities refer to one another by name. Nothing ensures that a name is
defined, or that it is defined once; where it is defined more than once the first definition
counts. -/

namespace Hazard

/-! ## Storage and locks -/

/-- What kind of storage a binding is. -/
inductive Category where
  | primitive
  | compound
  | atomic
  deriving DecidableEq, Repr

instance : Worded Category where
  members := [.primitive, .compound, .atomic]
  word
    | .primitive => "primitive"
    | .compound => "compound"
    | .atomic => "atomic"

/-- A named storage location. -/
structure Binding where
  name : String
  mutable : Bool := true
  category : Category := .primitive
  scope : String := "unit"
  location : Option Location := none
  waivers : List Waiver := []
  deriving DecidableEq, Repr

/-- Whether sharing a binding can be a race: it changes, and not atomically. -/
def Binding.isContested (b : Binding) : Bool := b.mutable && b.category != .atomic

/-- Whether a lock tells readers from writers. -/
inductive LockKind where
  | exclusive
  | readWrite
  deriving DecidableEq, Repr

instance : Worded LockKind where
  members := [.exclusive, .readWrite]
  word
    | .exclusive => "exclusive"
    | .readWrite => "read_write"

/-- A lock and the bindings it protects. -/
structure Lock where
  name : String
  kind : LockKind := .exclusive
  protects : List String := []
  location : Option Location := none
  deriving DecidableEq, Repr

/-- Whether a lock protects a binding. When the front-end could not tell what a lock protects, it
    is taken to protect everything. -/
def Lock.guards (l : Lock) (binding : String) : Bool :=
  l.protects.isEmpty || l.protects.contains binding

/-! ## Functions -/

/-- Whether an access changes the binding. -/
inductive AccessKind where
  | read
  | write
  deriving DecidableEq, Repr

instance : Worded AccessKind where
  members := [.read, .write]
  word
    | .read => "read"
    | .write => "write"

/-- An access to a binding in a block of a function. -/
structure Access where
  binding : String
  kind : AccessKind := .read
  block : Int := 0
  location : Option Location := none
  waivers : List Waiver := []
  deriving DecidableEq, Repr

/-- A place where a function returns. `aliases` tells whether the result shares its identity with
    the binding named by `value` or is a copy of it. -/
structure ReturnSite where
  block : Int
  value : Option String := none
  aliases : Bool := false
  location : Option Location := none
  waivers : List Waiver := []
  deriving DecidableEq, Repr

/-- A function with its flow graph, the functions it calls, and its accesses and returns. -/
structure Function where
  name : String
  graph : FlowGraph := .single
  calls : List String := []
  accesses : List Access := []
  returns : List ReturnSite := []
  location : Option Location := none
  waivers : List Waiver := []
  deriving DecidableEq, Repr

/-- A call that hands `handler` to a request router. -/
structure Registration where
  call : String
  handler : String
  location : Option Location := none
  deriving DecidableEq, Repr

/-- The part of a function that runs while a lock is held: from the block `enter` on, and up to
    the blocks of `exits`, which release the lock on arrival. Without exits the lock is held to the
    end of the function. -/
structure CriticalSection where
  lock : String
  function : String
  enter : Int := 0
  exits : List Int := []
  performsIo : Bool := false
  unboundedLoop : Bool := false
  size : Int := 0
  location : Option Location := none
  waivers : List Waiver := []
  deriving DecidableEq, Repr

/-! ## Tasks, channels and maps -/

/-- How a task sees a binding of the scope it was started in. -/
inductive CaptureMode where
  | byReference
  | byValue
  deriving DecidableEq, Repr

instance : Worded CaptureMode where
  members := [.byReference, .byValue]
  word
    | .byReference => "by_reference"
    | .byValue => "by_value"

/-- A binding captured by a task. -/
structure Capture where
  binding : String
  mode : CaptureMode := .byReference
  deriving DecidableEq, Repr

/-- A concurrent task and the function it starts in. A replicated task has several live copies. -/
structure Task where
  name : String
  entry : String
  captures : List Capture := []
  replicated : Bool := false
  location : Option Location := none
  deriving DecidableEq, Repr

namespace Task

/-- How many tasks a task counts for. -/
def weight (t : Task) : Nat := if t.replicated then 2 else 1

/-- Whether a task has its own copy of a binding. -/
def copies (t : Task) (binding : String) : Bool :=
  t.captures.any fun c => c.binding == binding && c.mode == .byValue

/-- How many tasks a list of tasks counts for. -/
def totalWeight (tasks : List Task) : Nat :=
  tasks.foldr (fun t total => t.weight + total) 0

end Task

/-- How much a channel holds. -/
inductive Capacity where
  | zero
  | bounded
  | unbounded
  deriving DecidableEq, Repr

instance : Worded Capacity where
  members := [.zero, .bounded, .unbounded]
  word
    | .zero => "zero"
    | .bounded => "bounded"
    | .unbounded => "unbounded"

/-- A channel between tasks. -/
structure Channel where
  name : String
  capacity : Capacity := .unbounded
  size : Option Int := none
  location : Option Location := none
  waivers : List Waiver := []
  deriving DecidableEq, Repr

/-- What an operation does to a concurrent map. -/
inductive MapAction where
  | load
  | store
  | delete
  | loadOrStore
  | loadAndDelete
  deriving DecidableEq, Repr

instance : Worded MapAction where
  members := [.load, .store, .delete, .loadOrStore, .loadAndDelete]
  word
    | .load => "load"
    | .store => "store"
    | .delete => "delete"
    | .loadOrStore => "load_or_store"
    | .loadAndDelete => "load_and_delete"

/-- Whether an operation looks a key up and changes it in one step. -/
def MapAction.isCombined : MapAction → Bool
  | .loadOrStore => true
  | .loadAndDelete => true
  | _ => false

/-- An operation on a concurrent map. A load may name the block that runs when the key is
    missing. -/
structure MapOperation where
  action : MapAction
  key : String
  function : String
  block : Int := 0
  missBlock : Option Int := none
  location : Option Location := none
  waivers : List Waiver := []
  deriving DecidableEq, Repr

/-- A concurrent map and the operations on it. -/
structure ConcurrentMap where
  name : String
  operations : List MapOperation := []
  location : Option Location := none
  waivers : List Waiver := []
  deriving DecidableEq, Repr

/-! ## Timers and instants -/

/-- Whether a timer fires once or until it is stopped. -/
inductive TimerKind where
  | oneShot
  | repeating
  deriving DecidableEq, Repr

instance : Worded TimerKind where
  members := [.oneShot, .repeating]
  word
    | .oneShot => "one_shot"
    | .repeating => "repeating"

/-- A timer made in a block of a function, and the blocks that stop it. A deferred stop happens
    whichever way the function is left. -/
structure Timer where
  name : String
  function : String
  kind : TimerKind := .repeating
  block : Int := 0
  stopBlocks : List Int := []
  deferredStop : Bool := false
  location : Option Location := none
  waivers : List Waiver := []
  deriving DecidableEq, Repr

/-- A point in time. It may have lost its monotonic reading, and it may have been derived from
    another instant by a transformation. -/
structure Instant where
  name : String
  monotonic : Bool := true
  derivedFrom : Option String := none
  transformation : Option String := none
  location : Option Location := none
  deriving DecidableEq, Repr

/-- How two instants are compared. -/
inductive ComparisonOperator where
  | equals
  | before
  | after
  deriving DecidableEq, Repr

instance : Worded ComparisonOperator where
  members := [.equals, .before, .after]
  word
    | .equals => "equals"
    | .before => "before"
    | .after => "after"

/-- A comparison of two instants. -/
structure Comparison where
  operator : ComparisonOperator
  left : String
  right : String
  structural : Bool := true
  targetsPersisted : Bool := false
  location : Option Location := none
  waivers : List Waiver := []
  deriving DecidableEq, Repr

/-- A duration measured from an instant. -/
structure Elapsed where
  instant : String
  location : Option Location := none
  waivers : List Waiver := []
  deriving DecidableEq, Repr

/-! ## The whole unit -/

/-- All facts about one unit. -/
structure Model where
  unit : String
  bindings : List Binding := []
  locks : List Lock := []
  functions : List Function := []
  sections : List CriticalSection := []
  tasks : List Task := []
  registrations : List Registration := []
  channels : List Channel := []
  maps : List ConcurrentMap := []
  timers : List Timer := []
  instants : List Instant := []
  comparisons : List Comparison := []
  elapsed : List Elapsed := []
  waivers : List Waiver := []
  deriving DecidableEq, Repr

end Hazard
