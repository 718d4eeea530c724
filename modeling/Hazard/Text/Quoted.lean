import Hazard.Text.Printable
import Hazard.Text.Surrogate

set_option autoImplicit false

/-! # Quoted texts

Messages show a text in quotes: single ones, or double ones when the text has single quotes and no
double ones. The quote, the backslash and all that cannot be shown is escaped, so the written form
is one line of printable characters that tells any two texts apart. -/

namespace Hazard.Text

/-- A number in at least `width` hexadecimal digits. -/
def hex (width n : Nat) : String :=
  let digits := Nat.toDigits 16 n
  String.ofList (List.replicate (width - digits.length) '0' ++ digits)

/-- The quote that surrounds a text. -/
def quoteFor (cs : List Char) : Char :=
  if cs.contains '\x27' && !cs.contains '\x22' then '\x22' else '\x27'

/-- A character as it is written between quotes. -/
def escapeChar (quote c : Char) : String :=
  if c == quote || c == '\x5c' then String.ofList ['\x5c', c]
  else if c == '\n' then "\\n"
  else if c == '\r' then "\\r"
  else if c == '\t' then "\\t"
  else if isPrintable c then c.toString
  else if code c < 0x100 then "\\x" ++ hex 2 (code c)
  else if code c < 0x10000 then "\\u" ++ hex 4 (code c)
  else "\\U" ++ hex 8 (code c)

/-- A text in quotes. -/
def quoted (s : String) : String :=
  let quote := quoteFor s.toList
  quote.toString ++ String.join (s.toList.map (escapeChar quote)) ++ quote.toString

/-- A byte as it is written between quotes; only ASCII characters can be shown. -/
def escapeByte (quote : Char) (b : UInt8) : String :=
  let c := Char.ofNat b.toNat
  if b.toNat < 128 then escapeChar quote c else "\\x" ++ hex 2 b.toNat

/-- A sequence of bytes in quotes, marked by `b`. -/
def quotedBytes (bytes : List UInt8) : String :=
  let quote := quoteFor ((bytes.filter (·.toNat < 128)).map fun b => Char.ofNat b.toNat)
  "b" ++ quote.toString ++ String.join (bytes.map (escapeByte quote)) ++ quote.toString

end Hazard.Text
