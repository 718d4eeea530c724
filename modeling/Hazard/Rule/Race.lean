import Hazard.Model.Query
import Hazard.Pattern.Search
import Hazard.Rule.Basic

set_option autoImplicit false

/-! # Races

Four rules about state that several tasks use: request handlers and tasks that touch it without a
lock, functions that hand out what a lock protects, and look-ups in a concurrent map that are
followed by a separate update. -/

namespace Hazard

/-! ## Handlers that share state -/

namespace HandlerSafety

/-- The calls that register a request handler, unless configured otherwise. -/
def defaultPatterns : List String :=
  ["(^|\\.)HandleFunc$",
   "(^|\\.)Handle$",
   "(^|\\.)(GET|POST|PUT|PATCH|DELETE|HEAD|OPTIONS|Any)$",
   "(^|\\.)(route|add_url_rule|add_route|add_api_route)$"]

/-- What is fixed about the rule. -/
def info : RuleInfo where
  id := "RC.1"
  title := "request handler touches shared state without a lock"
  severity := "high"
  confidence := "high"
  thresholds := [("handler_patterns", .patterns defaultPatterns)]
  fix := "Guard the shared state with a mutex held for the whole access, or make it atomic."

/-- What can run at the same time: the handlers and the tasks, each with the functions that it can
    run. -/
structure Runners where
  handlers : List (Function × List String)
  tasks : List (Task × List String)

/-- What can run at the same time in a unit with the given handlers. -/
def runners (m : Model) (handlers : List Function) : Runners where
  handlers := handlers.map fun h => (h, m.reachableFunctions h.name)
  tasks := m.taskReach

/-- Who else uses a binding: the other handlers and the tasks that run a function that accesses
    it, unless the task has its own copy. -/
def sharers (m : Model) (running : Runners) (self binding : String) : List String :=
  let users := (m.accessesOf binding).map (·.1.name)
  let others := running.handlers.filter fun (h, names) =>
    h.name != self && users.any names.contains
  let tasks := users.flatMap fun f => Model.sharingAmong running.tasks f binding
  Text.sortedSet
    (others.map (fun (h, _) => s!"handler '{h.name}'") ++ tasks.map (fun t => s!"task '{t.name}'"))

/-- The finding for an access to a binding that others share. -/
def finding (m : Model) (r : Registration) (h f : Function) (a : Access) (b : Binding)
    (shared : List String) : Candidate :=
  let via := if f.name == h.name then "" else s!" (via '{f.name}')"
  let verb := if a.kind == .write then "writes" else "reads"
  info.candidate (m.locate [a.location, f.location])
    (s!"handler '{h.name}' registered with {r.call}{via} {verb} '{b.name}' shared with "
      ++ ", ".intercalate shared ++ " without holding a lock")
    a.waivers
    [("handler", .text h.name), ("binding", .text b.name), ("sharers", .texts shared)]

/-- The finding for one access of a function that a handler runs. -/
def finding? (m : Model) (running : Runners) (r : Registration) (h f : Function)
    (a : Access) : Option Candidate := do
  let b ← m.binding? a.binding
  if b.isContested && m.isReachable f.name a.block && !m.isGuarded f.name a.block b.name then
    let shared := sharers m running h.name b.name
    if shared.isEmpty then none else some (finding m r h f a b shared)
  else none

/-- The findings for the handlers that are registered by the given calls. -/
def findings (m : Model) (isRouter : String → Bool) : List Candidate :=
  let registered := m.handlers isRouter
  let running := runners m (registered.map (·.2))
  registered.flatMap fun (r, h) =>
    (m.reachableFunctions h.name).flatMap fun name =>
      match m.function? name with
      | none => []
      | some f => f.accesses.filterMap (finding? m running r h f)

/-- The rule. -/
def rule [CharacterNames] : Rule where
  toRuleInfo := info
  evaluate m s := do
    let patterns ← Threshold.patterns (← s.threshold "handler_patterns")
    return findings m fun call => patterns.any (·.search call)

end HandlerSafety

/-! ## Tasks that share state -/

namespace UnguardedAccess

/-- What is fixed about the rule. -/
def info : RuleInfo where
  id := "RC.2"
  title := "unguarded read/write of state shared between tasks"
  severity := "high"
  confidence := "high"
  thresholds := [("min_tasks", .count 2 (some (.int 2)) (some (.int 1000)))]
  fix := "Hold the lock that protects this binding around the access, or use an atomic type."

/-- The accesses to a binding that some task can make without having its own copy, each with those
    tasks. It is known which functions the tasks can run. -/
def sharedSites (m : Model) (reach : List (Task × List String)) (binding : String) :
    List (Function × Access × List Task) :=
  (m.accessesOf binding).filterMap fun (f, a) =>
    let tasks := Model.sharingAmong reach f.name binding
    if !tasks.isEmpty && m.isReachable f.name a.block then some (f, a, tasks) else none

/-- The tasks that make some accesses, one for each name. Of tasks with the same name the last one
    counts. -/
def sharingTasks (sites : List (Function × Access × List Task)) : List Task :=
  novel Task.name [] (sites.flatMap (·.2.2)).reverse

/-- The finding for one access. -/
def finding (m : Model) (b : Binding) (tasks : List String) (f : Function) (a : Access) :
    Candidate :=
  let verb := if a.kind == .write then "written" else "read"
  info.candidate (m.locate [a.location, f.location])
    (s!"'{b.name}' is {verb} in '{f.name}' without a guarding lock while shared by tasks "
      ++ ", ".intercalate tasks)
    a.waivers
    [("binding", .text b.name), ("access", .text (Worded.word a.kind)), ("tasks", .texts tasks)]

/-- The findings for one binding that enough tasks share. -/
def findings (m : Model) (b : Binding) (sites : List (Function × Access × List Task)) :
    List Candidate :=
  let tasks := Text.sorted ((sharingTasks sites).map (·.name))
  let unguarded := sites.filter fun (f, a, _) => !m.isGuarded f.name a.block b.name
  unguarded.map fun (f, a, _) => finding m b tasks f a

/-- The findings for one binding. -/
def findingsFor (m : Model) (reach : List (Task × List String)) (minTasks : Value) (b : Binding) :
    Except Fault (List Candidate) := do
  if !b.isContested then return []
  let sites := sharedSites m reach b.name
  if ← Threshold.isAbove minTasks (Task.totalWeight (sharingTasks sites)) then return []
  else return findings m b sites

/-- The rule. -/
def rule : Rule where
  toRuleInfo := info
  evaluate m s := do
    let minTasks ← s.threshold "min_tasks"
    return (← m.bindings.mapM (findingsFor m m.taskReach minTasks)).flatten

end UnguardedAccess

/-! ## Functions that hand out protected state -/

namespace LeakedReference

/-- What is fixed about the rule. -/
def info : RuleInfo where
  id := "RC.3"
  title := "accessor leaks a reference to lock-protected state"
  severity := "high"
  confidence := "high"
  fix := "Return a copy (or an immutable value type) instead of the protected structure."

/-- A return from inside a section that hands out what the lock protects. -/
structure Leak where
  function : String
  /-- The position of the return among those of the function. -/
  index : Nat
  candidate : Candidate

/-- The leak at one return, seen from one section of the function that guards some blocks. -/
def leak? (m : Model) (s : CriticalSection) (guarded : List Int) (f : Function)
    (site : ReturnSite × Nat) : Option Leak := do
  let (r, index) := site
  let value ← r.value
  let b ← m.binding? value
  if r.aliases && guarded.contains r.block && b.category == .compound
      && m.excludes s b.name then
    some {
      function := f.name
      index
      candidate := info.candidate (m.locate [r.location, f.location])
        (s!"'{f.name}' returns a reference to '{b.name}' protected by '{s.lock}'; "
          ++ "callers use it after the lock is released")
        r.waivers
        [("function", .text f.name), ("binding", .text b.name), ("lock", .text s.lock)] }
  else none

/-- The leaks out of one section. -/
def leaks (m : Model) (s : CriticalSection) : List Leak :=
  match m.function? s.function with
  | none => []
  | some f => f.returns.zipIdx.filterMap (leak? m s (m.guardedBlocks s) f)

/-- The rule. A return is reported once, for the first section it leaks from. -/
def rule : Rule where
  toRuleInfo := info
  evaluate m _ :=
    let found := m.sections.flatMap (leaks m)
    return (novel (fun l => (l.function, l.index)) [] found).map (·.candidate)

end LeakedReference

/-! ## Look-ups followed by an update -/

namespace LoadThenStore

/-- What is fixed about the rule. -/
def info : RuleInfo where
  id := "RC.4"
  title := "load-miss-then-store on a concurrent map"
  severity := "high"
  confidence := "medium"
  markers := ["benign"]
  thresholds := [("min_tasks", .count 2 (some (.int 2)) (some (.int 1000)))]
  fix := "Use LoadOrStore (or LoadAndDelete) so the check and the update are one atomic step."

/-- The first load of the key that, when the key is missing, always comes before the block. -/
def missedLoad? (ops : List MapOperation) (key : String) (doms : List Int) :
    Option MapOperation :=
  ops.find? fun o =>
    o.action == .load && o.key == key && o.missBlock.any (doms.contains ·)

/-- The load that one store among the operations of a function on a map comes after, given the
    dominators in the function. -/
def loadBefore? (dominators : DominatorTable) (ops : List MapOperation) (store : MapOperation) :
    Option MapOperation := do
  if store.action != .store || ops.any (fun o => o.action.isCombined && o.key == store.key) then
    none
  else
    let doms ← dominators.lookup store.block
    missedLoad? ops store.key doms

/-- The finding for a store and the load before it. -/
def finding (m : Model) (map : ConcurrentMap) (function : String) (store load : MapOperation) :
    Except Fault Candidate := do
  let tasks := m.tasksReaching function
  let loadText ← (m.locate [load.location]).written.mapError Fault.ofNumeral
  return info.candidate (m.locate [store.location, map.location])
    (s!"'{map.name}'.Store({store.key}) in '{function}' runs after a missed Load({store.key}); "
      ++ s!"{tasks.length} task(s) can interleave between them")
    store.waivers
    [("map", .text map.name), ("key", .text store.key), ("load_location", .text loadText),
     ("tasks", .texts (Text.sorted (tasks.map (·.name))))]

/-- The findings for the operations of one function on one map. -/
def findingsIn (m : Model) (minTasks : Value) (map : ConcurrentMap) (function : String) :
    Except Fault (List Candidate) := do
  if ← Threshold.isAbove minTasks (Task.totalWeight (m.tasksReaching function)) then return []
  else
    let ops := map.operations.filter (·.function == function)
    let dominators := m.dominators function
    let pairs := ops.filterMap fun store =>
      (loadBefore? dominators ops store).map fun load => (store, load)
    pairs.mapM fun (store, load) => finding m map function store load

/-- The findings for one map, function by function in the order of their first operations. -/
def findingsFor (m : Model) (minTasks : Value) (map : ConcurrentMap) :
    Except Fault (List Candidate) := do
  let functions := (map.operations.map (·.function)).eraseDups
  return (← functions.mapM (findingsIn m minTasks map)).flatten

/-- The rule. -/
def rule : Rule where
  toRuleInfo := info
  evaluate m s := do
    let minTasks ← s.threshold "min_tasks"
    return (← m.maps.mapM (findingsFor m minTasks)).flatten

end LoadThenStore

end Hazard
