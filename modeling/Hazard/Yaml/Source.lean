import Hazard.Yaml.Error

set_option autoImplicit false

/-! # Sources

A text is read in windows, and each window from pieces of bytes. What is wrong with the bytes or
the characters of a window shows only when the window is needed: a flaw that is found before comes
first. So a source is the text up to the first bad window, and what is wrong with that window. -/

namespace Hazard.Yaml

/-- Makes all line ends alike. -/
def unifyLineEnds : List Char → List Char
  | [] => []
  | '\r' :: '\n' :: rest => '\n' :: unifyLineEnds rest
  | '\r' :: rest => '\n' :: unifyLineEnds rest
  | c :: rest => c :: unifyLineEnds rest

/-- Whether a text may hold a character. -/
def isAllowed (c : Char) : Bool :=
  let n := c.toNat
  c == '\t' || c == '\n' || c == '\r' || (0x20 ≤ n && n ≤ 0x7E) || n == 0x85
    || (0xA0 ≤ n && n ≤ 0xD7FF) || (0xE000 ≤ n && n ≤ 0xFFFD) || 0x10000 ≤ n

/-- A text, and what breaks in where it ends. -/
structure Source where
  text : List Char
  /-- The text goes on, but cannot be read any further. -/
  trouble : Option LoadError := none
  deriving DecidableEq, Repr

namespace Source

/-! ## Windows -/

/-- How many characters a window has. -/
def windowSize : Nat := 4096

/-- Where the window with a character begins. The first two windows are read together. -/
def windowStart (index : Nat) : Nat :=
  if index < 2 * windowSize then 0 else windowSize * (index / windowSize)

/-- A text up to the window with the character at `index`, with which something is wrong. -/
def upTo (text : List Char) (index : Nat) (trouble : LoadError) : Source :=
  { text := text.take (windowStart index), trouble := some trouble }

/-- A text in which every character is looked at as its window is read; `ahead` is what breaks in
    after the last one. In the same window that comes first. -/
def ofText (text : List Char) (ahead : Option LoadError := none) : Source :=
  match text.find? (!isAllowed ·), ahead with
  | none, none => { text }
  | none, some e => upTo text text.length e
  | some c, none => upTo text (text.idxOf c) (.malformed ⟨.unprintable c, none⟩)
  | some c, some e =>
    if windowStart (text.idxOf c) < windowStart text.length then
      upTo text (text.idxOf c) (.malformed ⟨.unprintable c, none⟩)
    else upTo text text.length e

/-! ## Pieces -/

/-- How many bytes a piece has at least, unless they end. -/
def pieceSize : Nat := 8192

/-- The characters that can be handed on of those that have been decoded, given last one first. A
    carriage return at the end has to wait for what follows it. -/
def handedOn (before : List Char) : List Char :=
  unifyLineEnds (if before.head? == some '\r' then before.drop 1 else before).reverse

/-- How many bytes the next piece has, when `count` characters have been handed on and the last
    piece gave `chars` of them for `bytes` bytes: enough to fill the window by the same rate. -/
def nextPiece (count bytes chars : Nat) : Nat :=
  max pieceSize (if chars = 0 then 0 else bytes * (windowSize - count % windowSize) / chars)

/-- Decodes bytes piece by piece. The bound is on the number of pieces; `before` holds the
    characters so far, the last one first, and `pending` the bytes of one that is cut off. -/
def decodePieces : (bound size : Nat) → (before : List Char) → (pending bytes : List UInt8) → Source
  | 0, _, before, _, _ => .ofText (handedOn before)
  | bound + 1, size, before, pending, bytes =>
    let count := (handedOn before).length
    if bytes.isEmpty then
      if pending.isEmpty then .ofText (unifyLineEnds before.reverse)
      else .ofText (handedOn before) (some (.breakdown (.undecodable (Text.cutOff pending))))
    else
      match Text.decodePiece before (pending ++ bytes.take size) with
      | .error e => .ofText (handedOn before) (some (.breakdown (.undecodable e)))
      | .ok (after, pending) =>
        let total := (handedOn after).length
        let taken := (bytes.take size).length
        decodePieces bound (nextPiece total taken (total - count)) after pending (bytes.drop size)

/-- The text that bytes are. -/
def ofBytes (bytes : List UInt8) : Source :=
  decodePieces (bytes.length + 1) pieceSize [] [] bytes

end Source

end Hazard.Yaml
