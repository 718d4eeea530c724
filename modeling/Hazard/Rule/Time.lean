import Hazard.Model.Query
import Hazard.Rule.Basic

set_option autoImplicit false

/-! # Timers and instants

Four rules about time: timers that keep firing after their function is left, instants compared for
equality by structure, durations measured from an instant without a monotonic reading, and
comparisons of instants of which only one has such a reading. -/

namespace Hazard

/-! ## Timers -/

namespace TimerLeak

/-- What is fixed about the rule. -/
def info : RuleInfo where
  id := "Tm.1"
  title := "repeating timer not stopped on every exit"
  severity := "high"
  confidence := "high"
  thresholds := [("max_reported_paths", .count 3 (some (.int 1)) (some (.int 100)))]
  fix := "Stop the timer on every exit path, e.g. with a deferred Stop() right after creation."

/-- A way out of a function. -/
structure Exit where
  kind : Option ExitKind
  location : String
  blocks : List Int

/-- The way out that a path takes. -/
def Exit.ofPath (m : Model) (f : Function) (path : List Int) : Except Fault Exit := do
  let last := path.getLast?.getD 0
  let place := m.locate [(f.graph.block? last).bind (·.location), f.location]
  return {
    kind := f.graph.exitKind? last
    location := ← place.written.mapError Fault.ofNumeral
    blocks := path }

/-- How a way out is described in the message. -/
def Exit.phrase (e : Exit) : String :=
  s!"{ExitKind.phrase e.kind} at {e.location} (blocks "
    ++ " -> ".intercalate (e.blocks.map toString) ++ ")"

/-- A way out as a fact about the finding. -/
def Exit.value (e : Exit) : Value :=
  .record [("exit_kind", (e.kind.map fun k => Value.text (Worded.word k)).getD .null),
    ("location", .text e.location), ("blocks", .list (e.blocks.map .int))]

/-- The first items of a list, or for a negative number all but the last ones. -/
def firstItems {α : Type} (limit : Int) (items : List α) : List α :=
  items.take (if limit < 0 then (items.length + limit).toNat else limit.toNat)

/-- The whole number that a threshold is, to count items by. -/
def itemCount : Value → Except Fault Int
  | .int n => return n
  | .bool b => return if b then 1 else 0
  | .null => throw (.notComparable ">" "int" "NoneType")
  | _ => throw .notIndex

/-- The ways out, of which no more than the limit are described. -/
def summary (limit : Int) (exits : List Exit) : String :=
  "; ".intercalate ((firstItems limit exits).map (·.phrase))
    ++ (if limit < exits.length then s!"; and {exits.length - limit} more" else "")

/-- The function in which a timer can be left running. -/
def owner? (m : Model) (t : Timer) : Option Function := do
  let f ← m.function? t.function
  if t.kind == .repeating && !(m.unstoppedExitPaths t).isEmpty then some f else none

/-- The findings for one timer: one or none. -/
def findingsFor (m : Model) (limit : Value) (t : Timer) : Except Fault (List Candidate) := do
  match owner? m t with
  | none => return []
  | some f =>
    let exits ← (m.unstoppedExitPaths t).mapM (Exit.ofPath m f)
    let count ← itemCount limit
    if !Text.isWritable (exits.length - count) && count < exits.length then
      throw (.ofNumeral .unwritable)
    return [info.candidate (m.locate [t.location, f.location])
      (s!"repeating timer '{t.name}' in '{f.name}' is not stopped on {exits.length} exit path(s): "
        ++ summary count exits)
      t.waivers
      [("timer", .text t.name), ("function", .text f.name),
       ("exit_paths", .list (exits.map (·.value)))]]

/-- The rule. -/
def rule : Rule where
  toRuleInfo := info
  evaluate m s := do
    let limit ← s.threshold "max_reported_paths"
    return (← m.timers.mapM (findingsFor m limit)).flatten

end TimerLeak

/-! ## Instants -/

namespace StructuralEquality

/-- What is fixed about the rule. -/
def info : RuleInfo where
  id := "Tm.2"
  title := "time instants compared with structural equality"
  severity := "medium"
  confidence := "high"
  fix := "Compare instants with the instant-aware Equal() operation."

/-- Whether a comparison looks at the structure of two instants. -/
def isHazard (m : Model) (c : Comparison) : Bool :=
  c.operator == .equals && c.structural && (m.instant? c.left).isSome
    && (m.instant? c.right).isSome

/-- The finding for one comparison. -/
def finding (m : Model) (c : Comparison) : Candidate :=
  info.candidate (m.locate [c.location])
    (s!"'{c.left} == {c.right}' compares time instants structurally; location and monotonic "
      ++ "readings make equal instants compare unequal")
    c.waivers
    [("left", .text c.left), ("right", .text c.right)]

/-- The rule. -/
def rule : Rule where
  toRuleInfo := info
  evaluate m _ := return (m.comparisons.filter (isHazard m)).map (finding m)

end StructuralEquality

namespace ElapsedSign

/-- What is fixed about the rule. -/
def info : RuleInfo where
  id := "Tm.3"
  title := "elapsed duration measured from a wall-clock-only instant"
  severity := "high"
  confidence := "high"
  fix := "Measure elapsed time from an instant that still carries its monotonic reading."

/-- The finding for one duration. -/
def finding? (m : Model) (e : Elapsed) : Option Candidate := do
  let i ← m.instant? e.instant
  if i.monotonic then none
  else
    let cause := m.strippingTransformation i.name
    let reason :=
      match cause with
      | some c => if c == "" then "" else s!" (monotonic reading dropped by {c})"
      | none => ""
    some (info.candidate (m.locate [e.location, i.location])
      (s!"elapsed time is computed from '{i.name}', which has no monotonic reading{reason}; "
        ++ "a wall-clock step can make the duration negative")
      e.waivers
      [("instant", .text i.name),
       ("derivation", .texts ((m.derivationChain i.name).map (·.name))),
       ("stripped_by", (cause.map Value.text).getD .null)])

/-- The rule. -/
def rule : Rule where
  toRuleInfo := info
  evaluate m _ := return m.elapsed.filterMap (finding? m)

end ElapsedSign

namespace MixedOrdering

/-- What is fixed about the rule. -/
def info : RuleInfo where
  id := "Tm.4"
  title := "ordering comparison mixes monotonic and wall-clock instants"
  severity := "medium"
  confidence := "medium"
  fix := "Strip the monotonic reading from both operands (e.g. Round(0)) before comparing."

/-- The finding for one comparison. -/
def finding? (m : Model) (c : Comparison) : Option Candidate := do
  let left ← m.instant? c.left
  let right ← m.instant? c.right
  if c.operator != .equals && c.targetsPersisted && left.monotonic != right.monotonic then
    let (monotonic, wall) := if left.monotonic then (left, right) else (right, left)
    let operator := Worded.word c.operator
    some (info.candidate (m.locate [c.location])
      (s!"'{c.left}' {operator} '{c.right}' is checked against a stored instant, but only "
        ++ s!"'{monotonic.name}' carries a monotonic reading ('{wall.name}' does not)")
      c.waivers
      [("monotonic", .text monotonic.name), ("wall_clock", .text wall.name),
       ("operator", .text operator)])
  else none

/-- The rule. -/
def rule : Rule where
  toRuleInfo := info
  evaluate m _ := return m.comparisons.filterMap (finding? m)

end MixedOrdering

end Hazard
