import Hazard.Text.Blank
import Hazard.Text.Digit
import Hazard.Text.Quoted

set_option autoImplicit false

/-! # Numerals

A numeral is a row of decimal digits of any script. Rows of more than `digitLimit` digits are
neither read nor written, since that would take too long. -/

namespace Hazard

/-- Why a text is not read as an integer. -/
inductive NumeralError where
  /-- The text is not a row of digits of the given base. -/
  | invalid (base : Nat) (text : String)
  /-- The text has more digits than are read. -/
  | tooLong (digits : Nat)
  /-- The number has more digits than are written. -/
  | unwritable
  deriving DecidableEq, Repr

namespace Text

/-- How many digits are read and written. -/
def digitLimit : Nat := 4300

/-- Whether a number has few enough digits to be written. Those of everyday size are told at
    once. -/
def isWritable (n : Int) : Bool :=
  n.natAbs < UInt64.size || n.natAbs < Nat.pow 10 digitLimit

end Text

/-- The wording of the errors. A long text is shown in part. -/
def NumeralError.message : NumeralError → String
  | .invalid base text =>
    s!"invalid literal for int() with base {base}: "
      ++ String.ofList ((Text.quoted text).toList.take 200)
  | .tooLong digits =>
    s!"Exceeds the limit ({Text.digitLimit} digits) for integer string conversion: value has "
      ++ s!"{digits} digits; use sys.set_int_max_str_digits() to increase the limit"
  | .unwritable =>
    s!"Exceeds the limit ({Text.digitLimit} digits) for integer string conversion; use "
      ++ "sys.set_int_max_str_digits() to increase the limit"

namespace Text

/-- The number a row of digits stands for. Characters that are no digits count as zero. -/
def digitsValue (cs : List Char) : Nat :=
  cs.foldl (fun n c => 10 * n + (digitValue? c).getD 0) 0

/-- Reads a row of digits. -/
def natural (cs : List Char) : Except NumeralError Nat :=
  let count := (cs.takeWhile isDecimal).length
  if digitLimit < count then .error (.tooLong count)
  else if count = cs.length && !cs.isEmpty then .ok (digitsValue cs)
  else .error (.invalid 10 (String.ofList cs))

/-- Whether single underscores stand between digits only, and at least one digit is there. -/
def groupsDigits : (afterDigit : Bool) → List Char → Bool
  | afterDigit, [] => afterDigit
  | afterDigit, '_' :: rest => afterDigit && groupsDigits false rest
  | _, c :: rest => isDecimal c && groupsDigits true rest

/-- Reads an integer as it is given on a command line: blanks around it, a sign and underscores
    between digits are allowed. -/
def integer? (s : String) : Option Int :=
  let cs := trim isNumberBlank s.toList
  let (negative, digits) :=
    match cs with
    | '-' :: rest => (true, rest)
    | '+' :: rest => (false, rest)
    | rest => (false, rest)
  let bare := digits.filter (· != '_')
  if groupsDigits false digits && bare.length ≤ digitLimit then
    let n : Int := digitsValue bare
    some (if negative then -n else n)
  else none

end Text

end Hazard
