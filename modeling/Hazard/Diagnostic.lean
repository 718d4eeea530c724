import Hazard.Value.Basic
import Hazard.Waiver

set_option autoImplicit false

/-! # Findings

A rule turns facts into candidates. The engine turns candidates into diagnostics, which also say
whether the finding has been accepted. Some diagnostics are about the run itself. -/

namespace Hazard

/-- Further facts about a finding, by name. -/
abbrev Extras := List (String × Value)

/-- What a rule has found. -/
structure Candidate where
  rule : String
  location : Location
  severity : String
  confidence : String
  message : String
  fix : Option String := none
  waivers : List Waiver := []
  extras : Extras := []
  deriving Repr

/-- A finding as it is reported. -/
structure Diagnostic where
  unit : String
  rule : String
  severity : String
  confidence : String
  location : Location
  message : String
  suppressed : Bool := false
  justification : Option String := none
  fix : Option String := none
  extras : Extras := []
  deriving Repr

/-! ## Diagnostics about the run -/

/-- The rule id of a unit that could not be read. -/
def ingestRule : String := "ingest"

/-- The rule id of a rule that failed. -/
def internalRule : String := "internal"

/-- The rule id of a unit that took too long. -/
def timeoutRule : String := "timeout"

/-- The rule id of a unit whose analysis was called off. -/
def partialRule : String := "partial"

/-- The rule ids of the diagnostics about the run. -/
def runRules : List String := [ingestRule, internalRule, timeoutRule, partialRule]

namespace Diagnostic

/-- Whether a diagnostic is about the run and not about the unit. -/
def isAboutRun (d : Diagnostic) : Bool := runRules.contains d.rule

/-- The order in which diagnostics are reported. -/
def order (a b : Diagnostic) : Ordering :=
  (Location.order a.location b.location).then
    ((Text.order a.rule b.rule).then
      ((Text.order a.unit b.unit).then (Text.order a.message b.message)))

/-- Whether a diagnostic is not reported after another. -/
def le (a b : Diagnostic) : Bool := order a b != .gt

/-- The diagnostics in the order in which they are reported; those that compare equal keep their
    order. -/
def sorted (ds : List Diagnostic) : List Diagnostic := ds.mergeSort le

end Diagnostic

end Hazard
