import Hazard.Model.Query
import Hazard.Rule.Basic

set_option autoImplicit false

/-! # Scaling

Two rules about constructs that keep tasks waiting for one another: channels that hold nothing,
and locks that tell readers from writers around very little work. -/

namespace Hazard

namespace ZeroCapacity

/-- What is fixed about the rule. -/
def info : RuleInfo where
  id := "Sc.1"
  title := "zero-capacity channel"
  severity := "low"
  confidence := "low"
  markers := ["intentional"]
  fix :=
    "Give the channel a buffer sized to the expected burst, or mark the rendezvous intentional."

/-- Whether a channel holds nothing. -/
def holdsNothing (c : Channel) : Bool :=
  c.capacity == .zero || (c.capacity == .bounded && c.size == some 0)

/-- The finding for one channel. -/
def finding (m : Model) (c : Channel) : Candidate :=
  info.candidate (m.locate [c.location])
    s!"channel '{c.name}' has zero capacity; every send blocks until a receiver is ready"
    c.waivers
    [("channel", .text c.name)]

/-- The rule. -/
def rule : Rule where
  toRuleInfo := info
  evaluate m _ := return (m.channels.filter holdsNothing).map (finding m)

end ZeroCapacity

namespace ShortReadWrite

/-- What is fixed about the rule. -/
def info : RuleInfo where
  id := "Sc.2"
  title := "read/write lock around a short critical section"
  severity := "medium"
  confidence := "medium"
  markers := ["benchmarked"]
  thresholds := [("short_section_size", .count 16 (some (.int 1)) (some (.int 10000)))]
  fix := "Use a plain mutex unless a benchmark shows the read/write lock wins."

/-- The lock that tells readers from writers around a section without anything slow in it. -/
def lockAround? (m : Model) (s : CriticalSection) : Option Lock := do
  let l ← m.lock? s.lock
  if l.kind == .readWrite && !s.performsIo && !s.unboundedLoop then some l else none

/-- The finding for a short section and its lock. -/
def finding (m : Model) (s : CriticalSection) (l : Lock) : Candidate :=
  info.candidate (m.locate [s.location, l.location])
    (s!"read/write lock '{l.name}' guards a short section in '{s.function}' "
      ++ s!"({s.size} statements, no I/O); its bookkeeping likely costs more than it saves")
    s.waivers
    [("lock", .text l.name), ("function", .text s.function), ("size", .int s.size)]

/-- The findings for one section: one or none. -/
def findingsFor (m : Model) (limit : Value) (s : CriticalSection) :
    Except Fault (List Candidate) := do
  match lockAround? m s with
  | none => return []
  | some l =>
    if ← Threshold.isReachedBy limit s.size then return []
    else if !Text.isWritable s.size then throw (.ofNumeral .unwritable)
    else return [finding m s l]

/-- The rule. -/
def rule : Rule where
  toRuleInfo := info
  evaluate m s := do
    let limit ← s.threshold "short_section_size"
    return (← m.sections.mapM (findingsFor m limit)).flatten

end ShortReadWrite

end Hazard
