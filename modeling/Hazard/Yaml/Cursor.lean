set_option autoImplicit false

/-! # Reading positions

A cursor is what is left of a text together with the place where it begins. -/

namespace Hazard.Yaml

/-- A place in a text. Lines and columns are counted from zero. -/
structure Mark where
  index : Nat := 0
  line : Nat := 0
  column : Nat := 0
  deriving DecidableEq, Repr

/-- Stands for the end of a text, in which it does not occur. -/
def endMarker : Char := '\x00'

/-- Whether a character ends a line. Carriage returns have been replaced before. -/
def isBreak (c : Char) : Bool := c == '\n' || c == '\x85' || c == '\u2028' || c == '\u2029'

/-- Whether a character is a blank. -/
def isBlank (c : Char) : Bool := c == ' ' || c == '\t'

/-- Whether a character is a blank, ends a line or stands for the end. -/
def isGap (c : Char) : Bool := isBlank c || isBreak c || c == endMarker

/-- The byte order mark, which takes no column. -/
def byteOrderMark : Char := '\uFEFF'

/-- What a line break counts as inside a scalar. -/
def breakValue (c : Char) : Char := if c == '\x85' then '\n' else c

/-- The place after a character. -/
def Mark.after (m : Mark) (c : Char) : Mark :=
  if isBreak c then ⟨m.index + 1, m.line + 1, 0⟩
  else if c == byteOrderMark then { m with index := m.index + 1 }
  else ⟨m.index + 1, m.line, m.column + 1⟩

/-- The rest of a text and its place. -/
structure Cursor where
  rest : List Char
  mark : Mark := {}
  deriving DecidableEq, Repr

namespace Cursor

/-- The character `k` places ahead. -/
def peekAt (c : Cursor) (k : Nat) : Char := c.rest[k]?.getD endMarker

/-- The next character. -/
def peek (c : Cursor) : Char := c.rest.headD endMarker

/-- The cursor after the next character. -/
def next (c : Cursor) : Cursor :=
  match c.rest with
  | [] => c
  | x :: rest => ⟨rest, c.mark.after x⟩

/-- The cursor after the given characters, which are the next ones, with the given rest. -/
def past (c : Cursor) (taken rest : List Char) : Cursor := ⟨rest, taken.foldl Mark.after c.mark⟩

/-- The cursor after the next `n` characters. -/
def skip (c : Cursor) (n : Nat) : Cursor := c.past (c.rest.take n) (c.rest.drop n)

/-- The characters up to the first that fails the test, and the cursor there. -/
def takeWhile (c : Cursor) (test : Char → Bool) : List Char × Cursor :=
  let taken := c.rest.takeWhile test
  (taken, c.past taken (c.rest.dropWhile test))

/-- The cursor at the first character that fails the test. -/
def dropWhile (c : Cursor) (test : Char → Bool) : Cursor := (c.takeWhile test).2

/-- Whether the next three characters are the given ones and a gap follows. -/
def atTriple (c : Cursor) (x : Char) : Bool :=
  c.rest.take 3 == [x, x, x] && isGap (c.peekAt 3)

/-- Whether a mark that begins or ends a document stands here, if this is a line's begin. -/
def atDocumentMark (c : Cursor) : Bool := c.atTriple '-' || c.atTriple '.'

end Cursor

end Hazard.Yaml
