import Hazard.Yaml.ScalarText
import Hazard.Yaml.Source

set_option autoImplicit false

/-! # Tokens

A text is cut into tokens as far as they are asked for. Whether a scalar or a collection is the
key of a mapping shows only at the colon after it, so the tokens after a possible key are held
back until that is settled; then the tokens that announce the key are put in front of it. A key
has to stand on one line and to be followed by its colon within `keyLimit` characters. -/

namespace Hazard.Yaml

/-- The kinds of tokens. -/
inductive TokenKind where
  | streamStart
  | streamEnd
  | documentStart
  | documentEnd
  | blockSequenceStart
  | blockMappingStart
  | blockEnd
  | flowSequenceStart
  | flowSequenceEnd
  | flowMappingStart
  | flowMappingEnd
  | blockEntry
  | flowEntry
  | key
  | value
  | scalar (text : String) (isPlain : Bool)
  deriving DecidableEq, Repr

/-- A token and the place where it begins. -/
structure Token where
  kind : TokenKind
  start : Mark
  deriving DecidableEq, Repr

/-- How far from the begin of a key its colon may be. -/
def keyLimit : Nat := 1024

/-- A place where a key may have begun. -/
structure PossibleKey where
  /-- The number of tokens before it. -/
  position : Nat
  /-- Whether there has to be a key, since its column is that of an open mapping. -/
  isRequired : Bool
  start : Mark
  deriving DecidableEq, Repr

/-- The state of the cutting. -/
structure TokenStream where
  /-- How many characters the text has. -/
  size : Nat
  cursor : Cursor
  /-- What breaks in where the text ends. -/
  trouble : Option LoadError := none
  /-- Tokens that have been cut and not been taken. -/
  pending : List Token := []
  /-- How many tokens have been taken. -/
  taken : Nat := 0
  /-- How many flow collections are open. -/
  flowLevel : Nat := 0
  /-- The column of the innermost open block, and those of the blocks around it. -/
  indent : Int := -1
  indents : List Int := []
  /-- Whether a key may begin here. -/
  keyAllowed : Bool := true
  /-- At most one possible key for each level of flow collections. -/
  keys : List (Nat × PossibleKey) := []
  isDone : Bool := false
  deriving DecidableEq, Repr

namespace TokenStream

/-- A source of which nothing has been taken. -/
def ofSource (source : Source) : TokenStream where
  size := source.text.length
  cursor := ⟨source.text, {}⟩
  trouble := source.trouble
  pending := [⟨.streamStart, {}⟩]

/-- Where the stream is. -/
def mark (s : TokenStream) : Mark := s.cursor.mark

/-- Whether a flow collection is open. -/
def inFlow (s : TokenStream) : Bool := s.flowLevel != 0

/-- Fails at the current place. -/
def fail {α : Type} (s : TokenStream) (flaw : Flaw) : Except LoadError α :=
  .error (.found s.mark flaw)

/-- Adds a token that begins here. -/
def push (s : TokenStream) (kind : TokenKind) : TokenStream :=
  { s with pending := s.pending ++ [⟨kind, s.mark⟩] }

/-- Adds a token of `n` characters. -/
def pushSkip (s : TokenStream) (kind : TokenKind) (n : Nat) : TokenStream :=
  { s.push kind with cursor := s.cursor.skip n }

/-! ## Possible keys -/

/-- Gives up the keys that have become too long. -/
def dropStaleKeys (s : TokenStream) : Except LoadError TokenStream :=
  let isStale := fun (k : PossibleKey) =>
    k.start.line != s.mark.line || keyLimit < s.mark.index - k.start.index
  if s.keys.any fun (_, k) => isStale k && k.isRequired then s.fail .missingColon
  else return { s with keys := s.keys.filter fun (_, k) => !isStale k }

/-- Gives up the possible key of the current level. -/
def dropKey (s : TokenStream) : Except LoadError TokenStream :=
  match s.keys.lookup s.flowLevel with
  | none => return s
  | some k =>
    if k.isRequired then s.fail .missingColon
    else return { s with keys := s.keys.filter (·.1 != s.flowLevel) }

/-- Notes that a key may begin here. -/
def noteKey (s : TokenStream) : Except LoadError TokenStream := do
  if !s.keyAllowed then return s
  let isRequired := !s.inFlow && s.indent == (s.mark.column : Int)
  let s ← s.dropKey
  let k : PossibleKey := ⟨s.taken + s.pending.length, isRequired, s.mark⟩
  return { s with keys := (s.flowLevel, k) :: s.keys }

/-! ## Indentation -/

/-- Opens a block at a column that is deeper than that of the innermost one. -/
def openBlock (s : TokenStream) (column : Nat) : Option TokenStream :=
  if s.indent < (column : Int) then
    some { s with indent := column, indents := s.indent :: s.indents }
  else none

/-- Ends the blocks that are deeper than `column`; the list holds the columns of the blocks around
    the innermost one. -/
def unwindTo (column : Int) : List Int → TokenStream → TokenStream
  | [], s => s
  | outer :: indents, s =>
    if column < s.indent then
      unwindTo column indents { s.push .blockEnd with indent := outer, indents }
    else s

/-- Ends the blocks that are deeper than `column`. In a flow collection columns mean nothing. -/
def unwind (s : TokenStream) (column : Int) : TokenStream :=
  if s.inFlow then s else unwindTo column s.indents s

/-! ## Cutting -/

/-- Goes over blanks, comments and line ends. Tells whether a line has ended. -/
def skipGap (m : Mark) (inComment broke : Bool) : List Char → Cursor × Bool
  | [] => (⟨[], m⟩, broke)
  | c :: rest =>
    if isBreak c then skipGap (m.after c) false true rest
    else if inComment || c == ' ' then skipGap (m.after c) inComment broke rest
    else if c == '#' then skipGap (m.after c) true broke rest
    else (⟨c :: rest, m⟩, broke)

/-- Goes to the next token. A byte order mark at the begin of the text is left out. In a block a
    key may begin on each new line. -/
def toNextToken (s : TokenStream) : TokenStream :=
  let c :=
    if s.mark.index == 0 && s.cursor.peek == byteOrderMark then s.cursor.next else s.cursor
  let (cursor, broke) := skipGap c.mark false false c.rest
  { s with cursor, keyAllowed := s.keyAllowed || (broke && !s.inFlow) }

/-- The end of the text. -/
def cutEnd (s : TokenStream) : Except LoadError TokenStream := do
  let s ← (s.unwind (-1)).dropKey
  return { s.push .streamEnd with keyAllowed := false, keys := [], isDone := true }

/-- A mark that begins or ends a document. -/
def cutDocumentMark (s : TokenStream) (kind : TokenKind) : Except LoadError TokenStream := do
  let s ← (s.unwind (-1)).dropKey
  return { s.pushSkip kind 3 with keyAllowed := false }

/-- The begin of a flow collection. -/
def cutFlowStart (s : TokenStream) (kind : TokenKind) : Except LoadError TokenStream := do
  let s ← s.noteKey
  return { s.pushSkip kind 1 with flowLevel := s.flowLevel + 1, keyAllowed := true }

/-- The end of a flow collection. -/
def cutFlowEnd (s : TokenStream) (kind : TokenKind) : Except LoadError TokenStream := do
  let s ← s.dropKey
  return { s.pushSkip kind 1 with flowLevel := s.flowLevel - 1, keyAllowed := false }

/-- A comma. -/
def cutFlowEntry (s : TokenStream) : Except LoadError TokenStream := do
  let s ← s.dropKey
  return { s.pushSkip .flowEntry 1 with keyAllowed := true }

/-- Opens a block of the given kind here, unless it is open already. Not every place allows it. -/
def beginBlock (s : TokenStream) (kind : TokenKind) (flaw : Flaw) :
    Except LoadError TokenStream :=
  if s.inFlow then return s
  else if !s.keyAllowed then s.fail flaw
  else return ((s.openBlock s.mark.column).map (·.push kind)).getD s

/-- The dash before an item of a block sequence. -/
def cutBlockEntry (s : TokenStream) : Except LoadError TokenStream := do
  let s ← s.beginBlock .blockSequenceStart .unexpectedEntry
  let s ← s.dropKey
  return { s.pushSkip .blockEntry 1 with keyAllowed := true }

/-- The question mark before a key. -/
def cutKey (s : TokenStream) : Except LoadError TokenStream := do
  let s ← s.beginBlock .blockMappingStart .unexpectedKey
  let s ← s.dropKey
  return { s.pushSkip .key 1 with keyAllowed := !s.inFlow }

/-- Puts tokens in front of the one that has the given number. -/
def insertAt (s : TokenStream) (position : Nat) (tokens : List Token) : TokenStream :=
  let (front, back) := s.pending.splitAt (position - s.taken)
  { s with pending := front ++ tokens ++ back }

/-- The colon before a value. If a key may have begun on this level, it has. -/
def cutValue (s : TokenStream) : Except LoadError TokenStream := do
  match s.keys.lookup s.flowLevel with
  | some k =>
    let s := { s with keys := s.keys.filter (·.1 != s.flowLevel) }
    let s :=
      match if s.inFlow then none else s.openBlock k.start.column with
      | some s => s.insertAt k.position [⟨.blockMappingStart, k.start⟩, ⟨.key, k.start⟩]
      | none => s.insertAt k.position [⟨.key, k.start⟩]
    return { s.pushSkip .value 1 with keyAllowed := false }
  | none =>
    let s ← s.beginBlock .blockMappingStart .unexpectedValue
    return { s.pushSkip .value 1 with keyAllowed := !s.inFlow }

/-- Adds a scalar that has been read. -/
def pushScalar (s : TokenStream) (scalar : ScalarText) (isPlain : Bool) : TokenStream :=
  { s.push (.scalar (String.ofList scalar.text) isPlain) with
    cursor := scalar.cursor, keyAllowed := scalar.breaksLine }

/-- A quoted scalar. -/
def cutQuoted (s : TokenStream) : Except LoadError TokenStream := do
  let s ← s.noteKey
  return s.pushScalar (← quotedScalar s.size s.cursor) false

/-- A plain scalar. -/
def cutPlain (s : TokenStream) : Except LoadError TokenStream := do
  let s ← s.noteKey
  return s.pushScalar (plainScalar s.size s.inFlow (s.indent + 1) s.cursor) true

/-- Whether a plain scalar begins here. -/
def beginsPlain (s : TokenStream) : Bool :=
  let c := s.cursor.peek
  !(isGap c || "-?:,[]\x7b\x7d#&*!|>'\"%@\x60".toList.contains c)
    || (!isGap (s.cursor.peekAt 1) && (c == '-' || (!s.inFlow && (c == '?' || c == ':'))))

/-- Cuts the next token. -/
def cut (s : TokenStream) : Except LoadError TokenStream := do
  let s ← s.toNextToken.dropStaleKeys
  let s := s.unwind s.mark.column
  let c := s.cursor.peek
  let atLineBegin := s.mark.column == 0
  let gapFollows := isGap (s.cursor.peekAt 1)
  if s.cursor.rest.isEmpty then s.cutEnd
  else if atLineBegin && s.cursor.atTriple '-' then s.cutDocumentMark .documentStart
  else if atLineBegin && s.cursor.atTriple '.' then s.cutDocumentMark .documentEnd
  else if c == '[' then s.cutFlowStart .flowSequenceStart
  else if c == '\x7b' then s.cutFlowStart .flowMappingStart
  else if c == ']' then s.cutFlowEnd .flowSequenceEnd
  else if c == '\x7d' then s.cutFlowEnd .flowMappingEnd
  else if c == ',' then s.cutFlowEntry
  else if c == '-' && gapFollows then s.cutBlockEntry
  else if c == '?' && (s.inFlow || gapFollows) then s.cutKey
  else if c == ':' && (s.inFlow || gapFollows) then s.cutValue
  else if c == '\x27' || c == '\x22' then s.cutQuoted
  else if s.beginsPlain then s.cutPlain
  else s.fail (.strayCharacter c)

/-- Cuts the next token. If the text goes on but cannot be read, that breaks in as soon as the last
    character has been reached. -/
def advance (s : TokenStream) : Except LoadError TokenStream :=
  match s.trouble, s.cut with
  | none, result => result
  | some trouble, .ok t => if s.size ≤ t.mark.index + 1 then .error trouble else .ok t
  | some trouble, .error e => .error (if e.isAtEnd s.size then trouble else e)

/-! ## Taking -/

/-- Cuts tokens until the next one is settled: there is one, and no token can come to stand in
    front of it. The bound is on the number of cuts. -/
def settle : (bound : Nat) → TokenStream → Except LoadError TokenStream
  | 0, s => return s
  | bound + 1, s => do
    if s.isDone then return s
    else if s.pending.isEmpty then settle bound (← s.advance)
    else
      let s ← s.dropStaleKeys
      if s.keys.any fun (_, k) => k.position == s.taken then settle bound (← s.advance)
      else return s

/-- The stream with the next token settled. -/
def settled (s : TokenStream) : Except LoadError TokenStream :=
  settle (s.size + 2) s

/-- The next token; past the end, the end. -/
def next (s : TokenStream) : Token := s.pending.headD ⟨.streamEnd, s.mark⟩

/-- The stream after the next token. -/
def drop (s : TokenStream) : TokenStream :=
  { s with pending := s.pending.drop 1, taken := s.taken + 1 }

end TokenStream

end Hazard.Yaml
