import Hazard.Text.Numeral
import Hazard.Value.Basic
import Hazard.Yaml.ScalarText

set_option autoImplicit false

/-! # Plain scalars

A plain scalar that is written like a null, a truth value or a number is one. Numbers may have
underscores between their digits. Whole numbers can be decimal, binary, octal or hexadecimal, and
both kinds of numbers can be written in base sixty, with colons between the digits. -/

namespace Hazard.Yaml.Plain

/-- Whether a character is a decimal digit. -/
def isDigit (c : Char) : Bool := '0' ≤ c && c ≤ '9'

/-- Whether a character is a digit or an underscore. -/
def isDigitOrLow (c : Char) : Bool := isDigit c || c == '_'

/-- The characters without underscores. -/
def bare (cs : List Char) : List Char := cs.filter (· != '_')

/-- A sign and what comes after it. -/
def splitSign : List Char → Bool × List Char
  | '-' :: rest => (true, rest)
  | '+' :: rest => (false, rest)
  | cs => (false, cs)

/-- Whether all characters pass a test and there is at least one. -/
def someAll (test : Char → Bool) (cs : List Char) : Bool := !cs.isEmpty && cs.all test

/-! ## Words -/

/-- The spellings of null. -/
def nulls : List String := ["", "~", "null", "Null", "NULL"]

/-- The spellings of true. -/
def trues : List String := ["yes", "Yes", "YES", "true", "True", "TRUE", "on", "On", "ON"]

/-- The spellings of false. -/
def falses : List String := ["no", "No", "NO", "false", "False", "FALSE", "off", "Off", "OFF"]

/-! ## Base sixty -/

/-- Whether a text is one or two digits that are below sixty. -/
def isSixtieth : List Char → Bool
  | [a] => isDigit a
  | [a, b] => '0' ≤ a && a ≤ '5' && isDigit b
  | _ => false

/-- The parts between colons. -/
def parts (cs : List Char) : List (List Char) :=
  match cs with
  | [] => [[]]
  | ':' :: rest => [] :: parts rest
  | c :: rest =>
    match parts rest with
    | part :: others => (c :: part) :: others
    | [] => [[c]]

/-! ## Whole numbers -/

/-- Whether a text without sign is a whole number. -/
def isWhole (cs : List Char) : Bool :=
  match cs with
  | '0' :: 'b' :: rest => someAll (fun c => c == '0' || c == '1' || c == '_') rest
  | '0' :: 'x' :: rest => someAll (fun c => (hexDigit? c).isSome || c == '_') rest
  | '0' :: rest => rest.all fun c => ('0' ≤ c && c ≤ '7') || c == '_'
  | cs =>
    match parts cs with
    | first :: sixtieths =>
      someAll isDigitOrLow first && first.head?.any isDigit && sixtieths.all isSixtieth
    | [] => false

/-- The number that digits of a base stand for. There has to be one. -/
def inBase (base : Nat) (cs : List Char) : Except Breakdown Nat :=
  if cs.isEmpty then .error (.numeral (.invalid base ""))
  else return cs.foldl (fun n c => base * n + (hexDigit? c).getD 0) 0

/-- The value of digits in base sixty. -/
def wholeOfParts (ps : List (List Char)) : Except Breakdown Nat :=
  (ps.foldlM (fun n p => return 60 * n + (← Text.natural p)) 0).mapError Breakdown.numeral

/-- The value of a whole number without sign. -/
def whole (cs : List Char) : Except Breakdown Nat :=
  match bare cs with
  | ['0'] => return 0
  | '0' :: 'b' :: rest => inBase 2 rest
  | '0' :: 'x' :: rest => inBase 16 rest
  | '0' :: rest => inBase 8 ('0' :: rest)
  | cs => wholeOfParts (parts cs)

/-! ## Doubles -/

/-- Whether a text is nothing or an exponent, which needs a sign. -/
def isExponent : List Char → Bool
  | [] => true
  | e :: sign :: rest =>
    (e == 'e' || e == 'E') && (sign == '-' || sign == '+') && someAll isDigit rest
  | _ => false

/-- Whether a text without sign is a number with a point, which can have an exponent unless it is
    in base sixty. -/
def isFraction (isSigned : Bool) (cs : List Char) : Bool :=
  let front := cs.takeWhile (· != '.')
  match cs.dropWhile (· != '.') with
  | [] => false
  | _ :: back =>
    let exponent := back.dropWhile isDigitOrLow
    if front.isEmpty then !isSigned && back.head?.any isDigit && isExponent exponent
    else
      match parts front with
      | first :: sixtieths =>
        someAll isDigitOrLow first && first.head?.any isDigit && sixtieths.all isSixtieth
          && isExponent exponent && (sixtieths.isEmpty || exponent.isEmpty)
      | [] => false

/-- The double that digits with a point stand for. -/
def decimalFloat (cs : List Char) : Float :=
  let front := cs.takeWhile isDigit
  let rest := (cs.dropWhile isDigit).drop 1
  let back := rest.takeWhile isDigit
  let exponent : Int :=
    match (rest.dropWhile isDigit).drop 1 with
    | '-' :: digits => -(Text.digitsValue digits : Int)
    | '+' :: digits => Text.digitsValue digits
    | _ => 0
  (Decimal.mk (Text.digitsValue (front ++ back)) (exponent - back.length)).toFloat

/-- The sum of the parts in base sixty, the last one first, weighted by powers of sixty. -/
def sixtiethSum (base : Nat) (sum : Float) : List (List Char) → Except Overflow Float
  | [] => return sum
  | p :: ps => do
    let weight ← Number.floatOfInt base
    sixtiethSum (base * 60) (sum + decimalFloat p * weight) ps

/-- The value of a number with a point, without sign. -/
def fraction (cs : List Char) : Except Breakdown Float :=
  match parts (bare cs) with
  | [single] => return decimalFloat single
  | ps => (sixtiethSum 1 0.0 ps.reverse).mapError Breakdown.overflow

/-- The spellings of infinity, without sign. -/
def infinities : List String := [".inf", ".Inf", ".INF"]

/-- The spellings of what is no number. -/
def notNumbers : List String := [".nan", ".NaN", ".NAN"]

/-! ## All kinds -/

/-- The plain scalar that can be a key only. -/
def keyOnly : String := "="

/-- What a plain scalar stands for. -/
def scalar (text : String) : Except Breakdown Scalar := do
  let (negative, cs) := splitSign text.toList
  let unsigned := String.ofList cs
  let isSigned := cs.length != text.length
  if nulls.contains text then return .null
  else if trues.contains text then return .bool true
  else if falses.contains text then return .bool false
  else if notNumbers.contains text then return .real (0.0 / 0.0)
  else if infinities.contains unsigned then
    return .real (if negative then -(1.0 / 0.0) else 1.0 / 0.0)
  else if isFraction isSigned cs then
    let x ← fraction cs
    return .real (if negative then -x else x)
  else if isWhole cs then
    let n : Int := ← whole cs
    return .int (if negative then -n else n)
  else return .text text

end Hazard.Yaml.Plain
