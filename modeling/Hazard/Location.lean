import Hazard.Text.Numeral
import Hazard.Text.Order

set_option autoImplicit false

/-! # Source locations

A place in a source file. Line 0 stands for the file as a whole and column 0 for a whole line, so
a zero column is left out of the written form. -/

namespace Hazard

/-- A file with a line and a column. Nothing forces a front-end to count from one, so both are
    plain integers. -/
structure Location where
  file : String
  line : Int
  column : Int := 0
  deriving DecidableEq, Repr

namespace Location

/-- The location that stands for the whole of `file`. -/
def ofFile (file : String) : Location := ⟨file, 0, 0⟩

/-- The written form: `file:line`, with `:column` unless the column is zero. -/
def text (loc : Location) : String :=
  if loc.column = 0 then s!"{loc.file}:{loc.line}"
  else s!"{loc.file}:{loc.line}:{loc.column}"

/-- The written form, unless a number in it has too many digits. -/
def written (loc : Location) : Except NumeralError String :=
  if Text.isWritable loc.line && Text.isWritable loc.column then return loc.text
  else throw .unwritable

/-- How two integers compare. -/
def orderInt (a b : Int) : Ordering := if a < b then .lt else if b < a then .gt else .eq

/-- The order of locations: by file, then by line, then by column. -/
def order (a b : Location) : Ordering :=
  (Text.order a.file b.file).then ((orderInt a.line b.line).then (orderInt a.column b.column))

/-- Whether a location does not come after another. -/
def le (a b : Location) : Bool := order a b != .gt

/-- Two locations are on the same line when file and line agree. -/
def sameLine (a b : Location) : Bool := a.file = b.file && a.line = b.line

end Location

end Hazard
