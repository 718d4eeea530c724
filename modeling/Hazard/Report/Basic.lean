import Hazard.Diagnostic
import Hazard.Report.Json
import Hazard.Value.Text

set_option autoImplicit false

/-! # Reports

A report is a JSON array of diagnostics. The order of the members of each is fixed, for the sake
of those who compare reports. -/

namespace Hazard

/-- The name under which reports are signed. -/
def toolName : String := "Vigil"

/-- The version under which reports are signed. -/
def toolVersion : String := "0.3.0"

/-- A text that may be absent. -/
def Value.ofOption : Option String → Value
  | none => null
  | some s => text s

/-- A location in a report. -/
def Location.record (l : Location) : Value :=
  .record [("file", .text l.file), ("line", .int l.line), ("column", .int l.column)]

/-- A diagnostic in a report. -/
def Diagnostic.record (d : Diagnostic) : Value :=
  .record [
    ("rule_id", .text d.rule),
    ("severity", .text d.severity),
    ("confidence", .text d.confidence),
    ("suppressed", .bool d.suppressed),
    ("justification", .ofOption d.justification),
    ("message", .text d.message),
    ("unit", .text d.unit),
    ("location", d.location.record),
    ("suggested_fix", .ofOption d.fix),
    ("extras", .record d.extras),
    ("tool", .text toolName),
    ("version", .text toolVersion)]

/-- The text of a report. -/
def report (ds : List Diagnostic) : Except NumeralError String :=
  let value := Value.list (ds.map Diagnostic.record)
  if value.isWritable then return Json.text value ++ "\n" else throw .unwritable

end Hazard
