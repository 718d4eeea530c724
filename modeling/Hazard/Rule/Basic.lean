import Hazard.Diagnostic
import Hazard.Fault
import Hazard.Model.Entity
import Hazard.Pattern.Parser
import Hazard.Value.Text

set_option autoImplicit false

/-! # Rules

A rule looks at the facts about a unit and reports candidates. It has default levels of severity
and confidence, and thresholds that a configuration can change. -/

namespace Hazard

/-- The levels of severity. -/
def severityLevels : List String := ["info", "low", "medium", "high", "error"]

/-- The levels of confidence. -/
def confidenceLevels : List String := ["low", "medium", "high"]

/-- What a threshold may be, and what it is by default. -/
inductive ThresholdSpec where
  | count (default : Int) (minimum maximum : Option Number)
  | patterns (default : List String)
  deriving Repr

/-- The default of a threshold. -/
def ThresholdSpec.default : ThresholdSpec → Value
  | count n _ _ => .int n
  | patterns ps => .texts ps

/-- The thresholds of a rule by their names. A configuration admits only values that a rule can use;
    without one they can be anything, and a rule that cannot use a value fails. -/
abbrev Thresholds := List (String × Value)

/-- How one rule is configured. Without a severity or confidence of its own the defaults of the
    rule hold. -/
structure RuleSettings where
  rule : String
  enabled : Bool := true
  severity : Option String := none
  confidence : Option String := none
  thresholds : Thresholds := []
  deriving Repr

/-- The value of a threshold. -/
def RuleSettings.threshold (s : RuleSettings) (name : String) : Except Fault Value :=
  match s.thresholds.lookup name with
  | some t => .ok t
  | none => .error (.missingKey name)

namespace Threshold

/-- The number that a threshold is compared by. -/
def number (operator : String) (t : Value) : Except Fault Number :=
  match t.number? with
  | some n => .ok n
  | none => .error (.notComparable operator "int" t.kindName)

/-- Whether a count is below a threshold. -/
def isAbove (t : Value) (count : Nat) : Except Fault Bool :=
  return (Number.int count).lt (← number "<" t)

/-- Whether a size is at a threshold or beyond. -/
def isReachedBy (t : Value) (size : Int) : Except Fault Bool :=
  return (← number ">=" t).le (.int size)

/-- The pattern that an item stands for. -/
def pattern [CharacterNames] : Value → Except Fault Pattern
  | .text p => (Pattern.parse p).mapError (Fault.badPattern p)
  | .scalar _ => throw .notPattern
  | v => throw (.notKey v.kindName)

/-- The items of a threshold. A text is taken for its characters and a mapping for its keys. -/
def items : Value → Except Fault (List Value)
  | .list vs => return vs
  | .mapping entries => return entries.map fun (k, _) => .scalar k
  | .text s => return s.toList.map fun c => .text c.toString
  | v => throw (.notIterable v.kindName)

/-- The patterns that a threshold lists. -/
def patterns [CharacterNames] (t : Value) : Except Fault (List Pattern) := do
    (← items t).mapM pattern

end Threshold

/-- What is fixed about a rule. -/
structure RuleInfo where
  id : String
  title : String
  severity : String
  confidence : String
  /-- The markers by which a waiver can accept what the rule finds. -/
  markers : List String := []
  thresholds : List (String × ThresholdSpec) := []
  fix : String
  deriving Repr

namespace RuleInfo

/-- The settings of a rule that is not configured. -/
def defaults (r : RuleInfo) : RuleSettings :=
  { rule := r.id, thresholds := r.thresholds.map fun (name, spec) => (name, spec.default) }

/-- A candidate with the default levels of the rule. -/
def candidate (r : RuleInfo) (location : Location) (message : String) (waivers : List Waiver)
    (extras : Extras) : Candidate :=
  { rule := r.id, location, severity := r.severity, confidence := r.confidence, message
    fix := some r.fix, waivers, extras }

end RuleInfo

/-- A rule. -/
structure Rule extends RuleInfo where
  evaluate : Model → RuleSettings → Except Fault (List Candidate)

end Hazard
