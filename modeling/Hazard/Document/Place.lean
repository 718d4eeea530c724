import Hazard.Location
import Hazard.Text.Numeral

set_option autoImplicit false

/-! # Written locations

A location is written `file:line` or `file:line:column`. The file may itself hold colons and
numbers; the shortest file that leaves one or two numbers is taken, so of two numbers at the end
the first is the line. A number alone is a line of the unit at hand. -/

namespace Hazard.Location

/-- The digits of a written location. -/
structure Written where
  file : List Char
  line : List Char
  column : Option (List Char)
  deriving DecidableEq, Repr

/-- Reads `line` or `line:column` up to the end. -/
def numbers? (cs : List Char) : Option (List Char × Option (List Char)) :=
  let line := cs.takeWhile Text.isDecimal
  if line.isEmpty then none
  else
    match cs.dropWhile Text.isDecimal with
    | [] => some (line, none)
    | ':' :: column =>
      if !column.isEmpty && column.all Text.isDecimal then some (line, some column) else none
    | _ => none

/-- Looks for the first colon that ends a file of at least one character and is followed by one or
    two numbers and nothing else. `file` holds the characters before the colon, last one first. A
    file has no line break. -/
def split? (file : List Char) : List Char → Option Written
  | [] => none
  | c :: rest =>
    match (if c == ':' && !file.isEmpty then numbers? rest else none) with
    | some (line, column) => some ⟨file.reverse, line, column⟩
    | none => if c == '\n' then none else split? (c :: file) rest

/-- Reads a written location. The result is `none` when the text is not of that form. -/
def ofText (unit : String) (s : String) : Except NumeralError (Option Location) :=
  let cs := Text.strip s.toList
  match split? [] cs with
  | some w => do
    let line ← Text.natural w.line
    let column ←
      match w.column with
      | some digits => Text.natural digits
      | none => pure 0
    return some ⟨String.ofList w.file, line, column⟩
  | none =>
    if !cs.isEmpty && cs.all Text.isDigit then do
      let line ← Text.natural cs
      return some ⟨unit, line, 0⟩
    else return none

end Hazard.Location
