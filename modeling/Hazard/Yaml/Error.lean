import Hazard.Number
import Hazard.Text.Numeral
import Hazard.Text.Utf8
import Hazard.Yaml.Cursor

set_option autoImplicit false

/-! # What can be wrong with a text

A text is malformed when it is not written by the rules. Other troubles break the reading down:
bytes that are no text, numbers and escapes that stand for nothing. -/

namespace Hazard.Yaml

/-- A way in which a text is malformed. -/
inductive Flaw where
  /-- A character that no text may hold. -/
  | unprintable (c : Char)
  /-- A character that begins nothing. -/
  | strayCharacter (c : Char)
  | unexpectedEntry
  | unexpectedKey
  | unexpectedValue
  /-- What must be a key is not followed by a colon. -/
  | missingColon
  /-- A quoted scalar has no end. -/
  | unclosedQuote
  /-- A document mark stands inside a quoted scalar. -/
  | documentMarkInQuotes
  | unknownEscape (c : Char)
  /-- An escape with too few hexadecimal digits. -/
  | badEscapeDigits
  /-- The text ends among the digits of an escape. -/
  | escapeCutOff
  /-- Something else stands where a value belongs. -/
  | missingContent
  /-- A block has neither another item nor an end. -/
  | blockNotEnded
  /-- A flow collection has neither another item nor an end. -/
  | flowNotEnded
  | missingDocumentStart
  | secondDocument
  /-- A list or a mapping is used as a key. -/
  | collectionAsKey
  /-- What can only be a key is used as a value. -/
  | reservedForKeys
  deriving DecidableEq, Repr

/-- The wording of the flaws. -/
def Flaw.message : Flaw → String
  | unprintable _ => "special characters are not allowed"
  | strayCharacter _ => "found a character that cannot start any token"
  | unexpectedEntry => "sequence entries are not allowed here"
  | unexpectedKey => "mapping keys are not allowed here"
  | unexpectedValue => "mapping values are not allowed here"
  | missingColon => "could not find expected ':'"
  | unclosedQuote => "found unexpected end of stream"
  | documentMarkInQuotes => "found unexpected document separator"
  | unknownEscape _ => "found unknown escape character"
  | badEscapeDigits => "expected an escape sequence of hexadecimal digits"
  | escapeCutOff => "expected an escape sequence of hexadecimal digits"
  | missingContent => "expected the node content"
  | blockNotEnded => "expected the end of the block"
  | flowNotEnded => "expected ',' or the end of the collection"
  | missingDocumentStart => "expected the start of a document"
  | secondDocument => "expected a single document in the stream"
  | collectionAsKey => "found unhashable key"
  | reservedForKeys => "found a scalar that can only be a key"

end Hazard.Yaml

namespace Hazard

/-- A flaw and its place, where there is one. -/
structure YamlError where
  flaw : Yaml.Flaw
  place : Option Yaml.Mark
  deriving DecidableEq, Repr

/-- The wording of an error. Lines and columns are shown counted from one. -/
def YamlError.message (e : YamlError) : String :=
  match e.place with
  | none => e.flaw.message
  | some m => s!"{e.flaw.message}, line {m.line + 1}, column {m.column + 1}"

/-- What breaks the reading of a text down. -/
inductive Breakdown where
  /-- The bytes are no text. -/
  | undecodable (e : Utf8Error)
  /-- A number cannot be read. -/
  | numeral (e : NumeralError)
  | overflow (o : Overflow)
  /-- An escape gives a number that is no code point. -/
  | noCharacter (code : Nat)
  deriving DecidableEq, Repr

/-- Why there is no value in a text. -/
inductive LoadError where
  | malformed (e : YamlError)
  | breakdown (b : Breakdown)
  deriving DecidableEq, Repr

namespace LoadError

/-- A flaw at a place. -/
def found (m : Yaml.Mark) (flaw : Yaml.Flaw) : LoadError := malformed ⟨flaw, some m⟩

/-- Whether an error shows only when the last of `size` characters has been reached. -/
def isAtEnd (size : Nat) : LoadError → Bool
  | malformed e => e.flaw == .escapeCutOff || e.place.any fun m => size ≤ m.index + 1
  | breakdown _ => false

end LoadError

end Hazard
