import Hazard.Location

set_option autoImplicit false

/-! # Waivers

A waiver is a note in the source that accepts a hazard. It names a rule, or all rules, or it
carries a marker that the rules concerned recognise. -/

namespace Hazard

/-- A note that accepts a hazard. -/
structure Waiver where
  rule : Option String := none
  marker : Option String := none
  justification : String := ""
  location : Option Location := none
  deriving DecidableEq, Repr

namespace Waiver

/-- The rule name that stands for every rule. -/
def everyRule : String := "all"

/-- Whether a waiver speaks of the given rule. A named rule decides alone; only a waiver
    without one is taken by its marker. -/
def covers (a : Waiver) (rule : String) (markers : List String) : Bool :=
  match a.rule with
  | some named => named == rule || named == everyRule
  | none =>
    match a.marker with
    | some marker => markers.contains marker
    | none => false

end Waiver

end Hazard
