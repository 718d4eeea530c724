import Hazard.Fault
import Hazard.Number

set_option autoImplicit false

/-! # The log

Besides its diagnostics a run leaves notices for the person who runs it. -/

namespace Hazard

/-- What a run can have to say. -/
inductive Notice where
  /-- A document has a key that means nothing to the reader. -/
  | unknownKey (key : String)
  /-- The front-end failed on a source. -/
  | frontEndFailed (source : String) (fault : Fault)
  /-- There are no facts about a unit. -/
  | notIngested (unit reason : String)
  /-- A rule failed on a unit. -/
  | ruleFailed (rule unit : String) (fault : Fault)
  /-- The analysis of a unit was called off before the given rules. -/
  | calledOff (unit : String) (skipped : List String)
  /-- The analysis of a unit had taken too long after the given rule. -/
  | overran (unit : String) (budget : Float) (rule : String)
  /-- The configuration cannot be used. -/
  | badConfiguration (reason : String)
  deriving Repr

namespace Notice

/-- The wording of a notice. -/
def message : Notice → String
  | unknownKey key => s!"Ignoring unknown IR document key '{key}'."
  | frontEndFailed source fault => s!"IR builder failed on '{source}': {fault.display}"
  | notIngested unit reason => s!"Could not build IR for '{unit}': {reason}"
  | ruleFailed rule unit fault => s!"Rule '{rule}' failed on '{unit}': {fault.display}"
  | calledOff unit skipped =>
    s!"Analysis of '{unit}' cancelled; skipped " ++ ", ".intercalate skipped ++ "."
  | overran unit budget rule =>
    s!"Analysis of '{unit}' exceeded " ++ (Binary.ofFloat budget).briefText
      ++ s!"s after rule '{rule}'."
  | badConfiguration reason => s!"Configuration error: {reason}"

/-- The line of a notice in the log. -/
def line (n : Notice) : String := s!"[vigil] {n.message}\n"

/-- Leaves out the notices about keys that have been named before; `seen` holds those keys. -/
def onceAfter (seen : List String) : List Notice → List Notice
  | [] => []
  | unknownKey key :: rest =>
    if seen.contains key then onceAfter seen rest
    else unknownKey key :: onceAfter (key :: seen) rest
  | n :: rest => n :: onceAfter seen rest

/-- The notices of a run. Each unknown key is named once, whatever the number of documents that
    have it. -/
def once (ns : List Notice) : List Notice := onceAfter [] ns

end Notice

end Hazard
