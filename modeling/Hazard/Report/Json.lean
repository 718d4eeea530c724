import Hazard.Text.Quoted
import Hazard.Value.Basic

set_option autoImplicit false

/-! # JSON

Values are written as JSON with one item to a line, two blanks deeper on each level. Only ASCII
characters are written; all others are escaped. -/

namespace Hazard.Json

/-- A code point as one escape, or as two that hold its halves. -/
def escapeCode (n : Nat) : String :=
  if n < 0x10000 then "\\u" ++ Text.hex 4 n
  else
    "\\u" ++ Text.hex 4 (0xD800 + (n - 0x10000) / 0x400)
      ++ "\\u" ++ Text.hex 4 (0xDC00 + (n - 0x10000) % 0x400)

/-- A character of a string. -/
def escapeChar (c : Char) : String :=
  if c == '\x22' || c == '\x5c' then String.ofList ['\x5c', c]
  else if c == '\n' then "\\n"
  else if c == '\r' then "\\r"
  else if c == '\t' then "\\t"
  else if c == '\x08' then "\\b"
  else if c == '\x0c' then "\\f"
  else if 0x20 ≤ c.toNat && c.toNat < 0x7F then c.toString
  else escapeCode (Text.code c)

/-- A string. -/
def string (s : String) : String := "\"" ++ String.join (s.toList.map escapeChar) ++ "\""

/-- A double. What is no finite number has a word. -/
def real (x : Float) : String :=
  match Binary.ofFloat x with
  | .finite .. => (Number.real x).text
  | .infinite false => "Infinity"
  | .infinite true => "-Infinity"
  | .notANumber => "NaN"

/-- A scalar. -/
def scalar : Scalar → String
  | .null => "null"
  | .bool true => "true"
  | .bool false => "false"
  | .int n => toString n
  | .real x => real x
  | .text s => string s

/-- The name of a member of an object: a string, whatever the key is. -/
def name : Scalar → String
  | .text s => string s
  | k => string (scalar k)

/-- The break before an item that is `depth` levels deep. -/
def lineBreak (depth : Nat) : String := "\n" ++ String.ofList (List.replicate (2 * depth) ' ')

/-- Items between brackets, `depth` levels deep. -/
def bracket (opening closing : String) (depth : Nat) (items : List String) : String :=
  if items.isEmpty then opening ++ closing
  else
    opening ++ ",".intercalate (items.map (lineBreak (depth + 1) ++ ·))
      ++ lineBreak depth ++ closing

mutual

/-- A value that stands `depth` levels deep. -/
def valueAt (depth : Nat) : Value → String
  | .scalar s => scalar s
  | .list items => bracket "[" "]" depth (itemsAt (depth + 1) items)
  | .mapping entries => bracket "\x7b" "\x7d" depth (membersAt (depth + 1) entries)

/-- The items of an array. -/
def itemsAt (depth : Nat) : List Value → List String
  | [] => []
  | v :: rest => valueAt depth v :: itemsAt depth rest

/-- The members of an object. -/
def membersAt (depth : Nat) : List (Scalar × Value) → List String
  | [] => []
  | (k, v) :: rest => (name k ++ ": " ++ valueAt depth v) :: membersAt depth rest

end

/-- The text of a value. -/
def text (v : Value) : String := valueAt 0 v

end Hazard.Json
