import Hazard.Document.Field
import Hazard.Model.Entity
import Hazard.Text.Order

set_option autoImplicit false

/-! # Reading a unit's description

A document describes a unit field by field. Every entity reader looks at its fields in a fixed
order, and the first one that is wrong is the one reported. -/

namespace Hazard

namespace Read

open Hazard.Field

variable (unit : String)

/-- A storage location. -/
def binding (raw : Entries) : Reading Binding := do
  let name ← text raw "name"
  let mutable ← flag raw "mutable" true
  let category ← choice raw "category" .primitive
  let scope ← text raw "scope" "unit"
  let location ← location unit raw
  let waivers ← waivers unit raw
  return { name, mutable, category, scope, location, waivers }

/-- A lock. -/
def lock (raw : Entries) : Reading Lock := do
  let name ← text raw "name"
  let kind ← choice raw "kind" .exclusive
  let protects ← names raw "protects"
  let location ← location unit raw
  return { name, kind, protects, location }

/-- A block of a flow graph. -/
def block (number : Nat) (raw : Entries) : Reading Block := do
  let successors ← integers raw "successors"
  let exit ← optionalChoice raw "exit"
  let location ← location unit raw
  let label ← optionalText raw "label"
  return { number, successors, exit, location, label }

/-- The blocks of a flow graph, numbered from `number`. -/
def blocks (number : Nat) : List Entries → Reading (List Block)
  | [] => return []
  | raw :: rest => return (← block unit number raw) :: (← blocks (number + 1) rest)

/-- A flow graph; a function without blocks has a single one. -/
def graph (raw : Entries) : Reading FlowGraph := do
  match ← blocks unit 0 (← items raw "blocks") with
  | [] => return .single
  | blocks => return { blocks := blocks.toArray, entry := ← integer raw "entry" }

/-- An access to a binding. -/
def access (raw : Entries) : Reading Access := do
  let binding ← text raw "binding"
  let kind ← choice raw "kind" .read
  let block ← integer raw "block"
  let location ← location unit raw
  let waivers ← waivers unit raw
  return { binding, kind, block, location, waivers }

/-- A place where a function returns. -/
def returnSite (raw : Entries) : Reading ReturnSite := do
  let block ← integer raw "block"
  let value ← optionalText raw "value"
  let aliases ← flag raw "aliases"
  let location ← location unit raw
  let waivers ← waivers unit raw
  return { block, value, aliases, location, waivers }

/-- A function. -/
def function (raw : Entries) : Reading Function := do
  let graph ← graph unit raw
  let name ← text raw "name"
  let calls ← names raw "calls"
  let accesses ← (← items raw "accesses").mapM (access unit)
  let returns ← (← items raw "returns").mapM (returnSite unit)
  let location ← location unit raw
  let waivers ← waivers unit raw
  return { name, graph, calls, accesses, returns, location, waivers }

/-- A critical section. -/
def criticalSection (raw : Entries) : Reading CriticalSection := do
  let lock ← text raw "lock"
  let function ← text raw "function"
  let enter ← integer raw "enter_block"
  let exits ← integers raw "exit_blocks"
  let performsIo ← flag raw "performs_io"
  let unboundedLoop ← flag raw "unbounded_loop"
  let size ← integer raw "size"
  let location ← location unit raw
  let waivers ← waivers unit raw
  return { lock, function, enter, exits, performsIo, unboundedLoop, size, location, waivers }

/-- A captured binding with the way in which it is captured. -/
def capture (entry : Scalar × Value) : Reading Capture :=
  match entry.2 with
  | .text s =>
    match Worded.ofWord? s with
    | some mode => return { binding := ← .name (.scalar entry.1), mode }
    | none => .refuse (.badCapture entry.1 entry.2)
  | mode => .refuse (.badCapture entry.1 mode)

/-- The captures of a task; any value that says nothing stands for none. -/
def captures (raw : Entries) : Reading (List Capture) :=
  match raw.get? "captures" with
  | none => return []
  | some value =>
    if value.isEmpty then return []
    else
      match value with
      | .mapping entries => entries.mapM capture
      | _ => .refuse .capturesNotMapping

/-- A task. -/
def task (raw : Entries) : Reading Task := do
  let captures ← captures raw
  let name ← text raw "name"
  let entry ← text raw "entry"
  let replicated ← flag raw "replicated"
  let location ← location unit raw
  return { name, entry, captures, replicated, location }

/-- A registration of a handler. -/
def registration (raw : Entries) : Reading Registration := do
  let call ← text raw "call"
  let handler ← text raw "handler"
  let location ← location unit raw
  return { call, handler, location }

/-- A channel. -/
def channel (raw : Entries) : Reading Channel := do
  let name ← text raw "name"
  let capacity ← choice raw "capacity" .unbounded
  let size ← optionalInteger raw "size"
  let location ← location unit raw
  let waivers ← waivers unit raw
  return { name, capacity, size, location, waivers }

/-- An operation on a concurrent map. -/
def mapOperation (raw : Entries) : Reading MapOperation := do
  let action ← choice raw "kind" .load
  let key ← text raw "key"
  let function ← text raw "function"
  let block ← integer raw "block"
  let missBlock ← optionalInteger raw "miss_block"
  let location ← location unit raw
  let waivers ← waivers unit raw
  return { action, key, function, block, missBlock, location, waivers }

/-- A concurrent map. -/
def concurrentMap (raw : Entries) : Reading ConcurrentMap := do
  let name ← text raw "name"
  let operations ← (← items raw "operations").mapM (mapOperation unit)
  let location ← location unit raw
  let waivers ← waivers unit raw
  return { name, operations, location, waivers }

/-- A timer. -/
def timer (raw : Entries) : Reading Timer := do
  let name ← text raw "name"
  let function ← text raw "function"
  let kind ← choice raw "kind" .repeating
  let block ← integer raw "block"
  let stopBlocks ← integers raw "stop_blocks"
  let deferredStop ← flag raw "deferred_stop"
  let location ← location unit raw
  let waivers ← waivers unit raw
  return { name, function, kind, block, stopBlocks, deferredStop, location, waivers }

/-- An instant. -/
def instant (raw : Entries) : Reading Instant := do
  let name ← text raw "name"
  let monotonic ← flag raw "monotonic" true
  let derivedFrom ← optionalText raw "derived_from"
  let transformation ← optionalText raw "transformation"
  let location ← location unit raw
  return { name, monotonic, derivedFrom, transformation, location }

/-- A comparison of instants. -/
def comparison (raw : Entries) : Reading Comparison := do
  let operator ← choice raw "operator" .equals
  let left ← text raw "left"
  let right ← text raw "right"
  let structural ← flag raw "structural" true
  let targetsPersisted ← flag raw "targets_persisted"
  let location ← location unit raw
  let waivers ← waivers unit raw
  return { operator, left, right, structural, targetsPersisted, location, waivers }

/-- A measured duration. -/
def elapsed (raw : Entries) : Reading Elapsed := do
  let instant ← text raw "instant"
  let location ← location unit raw
  let waivers ← waivers unit raw
  return { instant, location, waivers }

/-- A list of entities of one kind. -/
def each {α : Type} (raw : Entries) (key : String) (read : Entries → Reading α) :
    Reading (List α) := do
  (← items raw key).mapM read

end Read

namespace Document

/-- The fields of a document. -/
def keys : List String :=
  ["unit", "bindings", "locks", "functions", "critical_sections", "tasks", "registrations",
   "channels", "maps", "timers", "instants", "comparisons", "elapsed", "annotations"]

/-- Whether a key means something to the reader. -/
def isKnown : Scalar → Bool
  | .text s => keys.contains s
  | _ => false

/-- The keys that mean nothing to the reader, in order. -/
def unknownKeys (entries : Entries) : Reading (List String) := do
  let unknown := entries.filter fun (k, _) => !isKnown k
  return Text.sorted (← unknown.mapM fun (k, _) => .name (.scalar k))

/-- The name of the unit: that of the document, unless it says nothing. -/
def unitName (entries : Entries) (fallback : String) : Reading String :=
  match entries.get? "unit" with
  | none => return fallback
  | some value => if value.isEmpty then return fallback else .name value

/-- What a document used without a name of its own is called. -/
def memoryUnit : String := "<memory>"

/-- Reads the fields of a document. -/
def readEntries (entries : Entries) (fallback : String) : Reading Model := do
  let unit ← unitName entries fallback
  return {
    unit
    bindings := ← Read.each entries "bindings" (Read.binding unit)
    locks := ← Read.each entries "locks" (Read.lock unit)
    functions := ← Read.each entries "functions" (Read.function unit)
    sections := ← Read.each entries "critical_sections" (Read.criticalSection unit)
    tasks := ← Read.each entries "tasks" (Read.task unit)
    registrations := ← Read.each entries "registrations" (Read.registration unit)
    channels := ← Read.each entries "channels" (Read.channel unit)
    maps := ← Read.each entries "maps" (Read.concurrentMap unit)
    timers := ← Read.each entries "timers" (Read.timer unit)
    instants := ← Read.each entries "instants" (Read.instant unit)
    comparisons := ← Read.each entries "comparisons" (Read.comparison unit)
    elapsed := ← Read.each entries "elapsed" (Read.elapsed unit)
    waivers := ← Field.waivers unit entries
  }

/-- Reads a document. The keys are looked at before anything else. -/
def read (document : Value) (fallback : String) : Reading Model :=
  match document with
  | .mapping entries => do
    let _ ← unknownKeys entries
    readEntries entries fallback
  | _ => .refuse .notMapping

end Document

end Hazard
