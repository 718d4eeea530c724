import Hazard.Text.Quoted

set_option autoImplicit false

/-! # UTF-8

A character takes one to four bytes. The first byte tells how many more there are, and the range
of the second one; all others are continuation bytes. Bytes can be decoded piece by piece: a
character that is cut off at the end of a piece goes on in the next one. -/

namespace Hazard

/-- Why bytes are no text: which of them, from `start` up to before `stop`, and what is wrong. -/
structure Utf8Error where
  bytes : List UInt8
  start : Nat
  stop : Nat
  reason : String
  deriving DecidableEq, Repr

namespace Utf8Error

/-- The wording of the error. A single byte is shown, several are named by their positions. -/
def message (e : Utf8Error) : String :=
  let bytes :=
    if e.stop = e.start + 1 then
      "byte 0x" ++ Text.hex 2 ((e.bytes[e.start]?.getD 0).toNat) ++ s!" in position {e.start}"
    else s!"bytes in position {e.start}-{e.stop - 1}"
  s!"'utf-8' codec can't decode {bytes}: {e.reason}"

/-- The error with all it holds, as it is written in the log. -/
def display (e : Utf8Error) : String :=
  s!"UnicodeDecodeError('utf-8', {Text.quotedBytes e.bytes}, {e.start}, {e.stop}, "
    ++ Text.quoted e.reason ++ ")"

end Utf8Error

namespace Text

/-- What the first byte of a character tells. -/
structure LeadByte where
  /-- How many bytes follow. -/
  more : Nat
  /-- The first part of the code point. -/
  bits : Nat
  /-- The range of the second byte. -/
  low : Nat := 0x80
  high : Nat := 0xBF

/-- Reads the first byte of a character. The ranges leave out code points that have a shorter form
    and those that are no characters. -/
def leadByte? (b : Nat) : Option LeadByte :=
  if b < 0x80 then some { more := 0, bits := b }
  else if b < 0xC2 then none
  else if b < 0xE0 then some { more := 1, bits := b - 0xC0 }
  else if b == 0xE0 then some { more := 2, bits := 0, low := 0xA0 }
  else if b == 0xED then some { more := 2, bits := 0xD, high := 0x9F }
  else if b < 0xF0 then some { more := 2, bits := b - 0xE0 }
  else if b == 0xF0 then some { more := 3, bits := 0, low := 0x90 }
  else if b == 0xF4 then some { more := 3, bits := 4, high := 0x8F }
  else if b < 0xF4 then some { more := 3, bits := b - 0xF0 }
  else none

/-- How the bytes after the first one turn out. -/
inductive Continued where
  | complete (code : Nat) (rest : List UInt8)
  /-- A byte is out of range after `read` bytes of the character. -/
  | invalid (read : Nat)
  /-- The bytes end in the middle of the character. -/
  | cutOff

/-- Reads the bytes after the first one. -/
def continueChar : (more low high code read : Nat) → List UInt8 → Continued
  | 0, _, _, code, _, rest => .complete code rest
  | _ + 1, _, _, _, _, [] => .cutOff
  | more + 1, low, high, code, read, b :: rest =>
    if low ≤ b.toNat && b.toNat ≤ high then
      continueChar more 0x80 0xBF (64 * code + (b.toNat - 0x80)) (read + 1) rest
    else .invalid read

/-- Decodes what is left of `bytes` after `position` bytes; `before` holds the characters decoded
    so far, the last one first. The bound is on the number of characters. The result is the
    characters, the last one first, and the bytes of a character that is cut off at the end. -/
def decodeFrom (bytes : List UInt8) : (bound position : Nat) → (before : List Char) →
    List UInt8 → Except Utf8Error (List Char × List UInt8)
  | 0, _, before, rest => return (before, rest)
  | _ + 1, _, before, [] => return (before, [])
  | bound + 1, position, before, b :: rest =>
    match leadByte? b.toNat with
    | none => throw ⟨bytes, position, position + 1, "invalid start byte"⟩
    | some lead =>
      match continueChar lead.more lead.low lead.high lead.bits 1 rest with
      | .complete code rest =>
        decodeFrom bytes bound (position + lead.more + 1) (Char.ofNat code :: before) rest
      | .invalid read =>
        throw ⟨bytes, position, position + read, "invalid continuation byte"⟩
      | .cutOff => return (before, b :: rest)

/-- Decodes a piece that follows the characters `before`, given last one first. -/
def decodePiece (before : List Char) (bytes : List UInt8) :
    Except Utf8Error (List Char × List UInt8) :=
  decodeFrom bytes bytes.length 0 before bytes

/-- A character that is cut off by the end of all bytes. -/
def cutOff (bytes : List UInt8) : Utf8Error :=
  ⟨bytes, 0, bytes.length, "unexpected end of data"⟩

/-- Decodes bytes as one piece. -/
def decode (bytes : List UInt8) : Except Utf8Error String := do
  match ← decodePiece [] bytes with
  | (before, []) => return String.ofList before.reverse
  | (_, rest) => throw (cutOff rest)

end Text

end Hazard
