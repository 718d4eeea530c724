import Hazard.Engine.Ingest
import Hazard.Engine.Schedule
import Hazard.Rule.Basic

set_option autoImplicit false

/-! # The analysis of a unit

The rules are run one after the other. A rule that fails costs its own findings only. Between two
rules the analysis can be called off, or found to have taken too long; then one diagnostic names
the rules that have not been run. -/

namespace Hazard

/-! ## Suppression -/

/-- Whether a waiver of the unit applies at a location: it stands on the same line, or it has no
    location and so holds for the whole unit. -/
def Waiver.appliesAt (a : Waiver) (loc : Location) : Bool :=
  match a.location with
  | none => true
  | some place => place.sameLine loc

/-- The waiver that accepts a candidate: one of its own if there is one, else one of the unit. -/
def Candidate.waiver? (c : Candidate) (markers : List String) (unitWaivers : List Waiver) :
    Option Waiver :=
  match c.waivers.find? (·.covers c.rule markers) with
  | some a => some a
  | none => unitWaivers.find? fun a => a.appliesAt c.location && a.covers c.rule markers

/-! ## Diagnostics -/

namespace Diagnostic

/-- A diagnostic about the run. Without a location it is about the unit as a whole. -/
def aboutRun (unit rule severity message : String) (location : Option Location := none)
    (extras : Extras := []) : Diagnostic :=
  { unit, rule, severity, confidence := "high", location := location.getD (.ofFile unit)
    message, extras }

/-- There are no facts about a unit. -/
def notIngested (f : IngestFailure) : Diagnostic :=
  aboutRun f.unit ingestRule "error" s!"could not build IR: {f.reason}" f.location

/-- A rule failed on a unit. -/
def ruleFailed (unit rule : String) (fault : Fault) : Diagnostic :=
  aboutRun unit internalRule "error" s!"rule {rule} failed: {fault.kind}: {fault.message}" none
    [("rule", .text rule)]

/-- The analysis of a unit was called off before the given rules. -/
def calledOff (unit : String) (skipped : List String) : Diagnostic :=
  aboutRun unit partialRule "info"
    ("analysis cancelled; rules not run: " ++ ", ".intercalate skipped) none
    [("skipped_rules", .texts skipped)]

/-- The analysis of a unit had taken too long after a rule. -/
def overran (unit rule : String) (budget : Float) (elapsed : Number) (skipped : List String) :
    Diagnostic :=
  aboutRun unit timeoutRule "error"
    ("analysis exceeded its " ++ (Binary.ofFloat budget).briefText ++ s!"s budget after rule {rule}"
      ++ (if skipped.isEmpty then "" else "; rules not run: " ++ ", ".intercalate skipped))
    none
    [("elapsed", .ofNumber elapsed.toThousandths), ("skipped_rules", .texts skipped)]

/-- A candidate as it is reported: with the levels that are set for its rule, and marked if a
    waiver accepts it. -/
def ofCandidate (m : Model) (rule : RuleInfo) (settings : RuleSettings) (c : Candidate) :
    Diagnostic :=
  let waiver := c.waiver? rule.markers m.waivers
  { unit := m.unit, rule := c.rule, severity := level settings.severity c.severity
    confidence := level settings.confidence c.confidence, location := c.location
    message := c.message, suppressed := waiver.isSome
    justification := waiver.map (·.justification), fix := c.fix, extras := c.extras }
where
  /-- The level that is set, if any. -/
  level (set : Option String) (default : String) : String :=
    match set with
    | none => default
    | some s => if s == "" then default else s

end Diagnostic

/-! ## Passes -/

/-- What the analysis of a unit, or a part of it, leaves behind. -/
structure Pass where
  diagnostics : List Diagnostic := []
  notices : List Notice := []
  /-- How often the clock has been read since the beginning of the run. -/
  readings : Nat
  /-- What has brought the whole run to a halt, if anything has: two readings of the clock that are
      too far apart for their difference to be taken. -/
  halt : Option Overflow := none
  deriving Repr

/-- Rules with their settings, in the order in which they are run. -/
abbrev RuleList := List (Rule × RuleSettings)

namespace RuleList

/-- The ids of the rules. -/
def ids (rules : RuleList) : List String := rules.map (·.1.id)

end RuleList

namespace Rule

/-- What a rule has to report about a unit. -/
def findings (rule : Rule) (settings : RuleSettings) (m : Model) : List Diagnostic :=
  match rule.evaluate m settings with
  | .ok candidates => candidates.map (Diagnostic.ofCandidate m rule.toRuleInfo settings)
  | .error fault => [Diagnostic.ruleFailed m.unit rule.id fault]

/-- The notices that come with the findings. -/
def notices (rule : Rule) (settings : RuleSettings) (m : Model) : List Notice :=
  match rule.evaluate m settings with
  | .ok _ => []
  | .error fault => [Notice.ruleFailed rule.id m.unit fault]

end Rule

namespace Pass

/-- The pass that is called off before the given rules. -/
def calledOff (unit : String) (rules : RuleList) (readings : Nat) : Pass where
  diagnostics := [.calledOff unit rules.ids]
  notices := [.calledOff unit rules.ids]
  readings

/-- The pass that has taken too long after `rule`, before the given rules. -/
def overran (unit : String) (rule : Rule) (budget : Float) (elapsed : Number) (rules : RuleList)
    (readings : Nat) : Pass where
  diagnostics := [.overran unit rule.id budget elapsed rules.ids]
  notices := [.overran unit budget rule.id]
  readings

/-- The pass that comes to a halt. -/
def halted (o : Overflow) (readings : Nat) : Pass where
  readings
  halt := some o

/-- A rule's findings and notices in front of a pass. -/
def after (rule : Rule) (settings : RuleSettings) (m : Model) (p : Pass) : Pass :=
  { p with
    diagnostics := rule.findings settings m ++ p.diagnostics
    notices := rule.notices settings m ++ p.notices }

/-- The time limit, if there is one and the elapsed time is beyond it. -/
def exceeded? (budget : Option Float) (elapsed : Number) : Option Float :=
  budget.filter fun limit => (Number.real limit).lt elapsed

/-- Runs the rules on a unit whose analysis began when the clock showed `started`. -/
def ofRules (s : Schedule) (budget : Option Float) (m : Model) (started : Number) :
    RuleList → Nat → Pass
  | [], n => { readings := n }
  | (rule, settings) :: rest, n =>
    match s.stopTest n with
    | (true, n) => calledOff m.unit ((rule, settings) :: rest) n
    | (false, n) =>
      after rule settings m <|
        match (s.reading n).sub started with
        | .error o => halted o (n + 1)
        | .ok elapsed =>
          match exceeded? budget elapsed with
          | some limit => overran m.unit rule limit elapsed rest (n + 1)
          | none => ofRules s budget m started rest (n + 1)

/-- The analysis of a unit, after `n` readings of the clock. -/
def ofUnit (s : Schedule) (budget : Option Float) (rules : RuleList) (n : Nat) : Ingested → Pass
  | .failure f =>
    { diagnostics := [.notIngested f], notices := [.notIngested f.unit f.reason], readings := n }
  | .model m => ofRules s budget m (s.reading n) rules (n + 1)

/-- A pass in front of another one. -/
def append (p q : Pass) : Pass :=
  { q with diagnostics := p.diagnostics ++ q.diagnostics, notices := p.notices ++ q.notices }

/-- The analyses of several units, one after the other, of which the first begins after `n`
    readings of the clock. -/
def ofUnits (s : Schedule) (budget : Option Float) (rules : RuleList) : List Ingested → Nat → Pass
  | [], n => { readings := n }
  | u :: rest, n =>
    let first := ofUnit s budget rules n u
    if first.halt.isSome then first
    else first.append (ofUnits s budget rules rest first.readings)

end Pass

end Hazard
