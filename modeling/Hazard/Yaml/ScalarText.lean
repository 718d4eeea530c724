import Hazard.Yaml.Error

set_option autoImplicit false

/-! # The texts of scalars

Plain and quoted scalars can go over several lines. A single line break inside one counts as a
blank; of several, the first is left out. -/

namespace Hazard.Yaml

/-- What stands for a line break that is followed by the given empty lines. -/
def foldBreaks (first : Char) (breaks : List Char) : List Char :=
  if breakValue first != '\n' then breakValue first :: breaks
  else if breaks.isEmpty then [' ']
  else breaks

/-! ## Plain scalars -/

/-- The rest of a word of a plain scalar: up to a gap, a colon that ends a key, or inside a flow
    collection a character that belongs to the collection. -/
def plainWord (inFlow : Bool) : List Char → List Char × List Char
  | [] => ([], [])
  | c :: rest =>
    if stops c (rest.headD endMarker) then ([], c :: rest)
    else
      let (word, rest) := plainWord inFlow rest
      (c :: word, rest)
where
  /-- Whether the scalar stops before `c`, when `d` comes after it. -/
  stops (c d : Char) : Bool :=
    isGap c || (c == ':' && (isGap d || inFlow && ",[]\x7b\x7d".toList.contains d))
      || (inFlow && ",?[]\x7b\x7d".toList.contains c)

/-- Goes over blanks and empty lines up to the next word. Gives the empty lines, or nothing when a
    document mark is in the way. -/
def plainBreaks (m : Mark) : List Char → Option (List Char) × Cursor
  | [] => (some [], ⟨[], m⟩)
  | c :: rest =>
    if c == ' ' then plainBreaks (m.after c) rest
    else if isBreak c then
      if (Cursor.mk rest (m.after c)).atDocumentMark then (none, ⟨rest, m.after c⟩)
      else
        let (breaks, cursor) := plainBreaks (m.after c) rest
        (breaks.map (breakValue c :: ·), cursor)
    else (some [], ⟨c :: rest, m⟩)

/-- What stands between two words of a plain scalar. -/
structure PlainGap where
  /-- What the gap counts as; nothing ends the scalar. -/
  value : List Char
  cursor : Cursor
  /-- Whether the gap goes over a line's end. -/
  breaksLine : Bool

/-- The gap after a word. -/
def plainGap (c : Cursor) : PlainGap :=
  let (blanks, c) := c.takeWhile (· == ' ')
  if isBreak c.peek then
    let first := c.peek
    let c := c.next
    if c.atDocumentMark then ⟨[], c, true⟩
    else
      match plainBreaks c.mark c.rest with
      | (none, c) => ⟨[], c, true⟩
      | (some breaks, c) => ⟨foldBreaks first breaks, c, true⟩
  else ⟨blanks, c, false⟩

/-- A scalar that has been read. -/
structure ScalarText where
  text : List Char
  cursor : Cursor
  /-- Whether a new line has begun after the last word. -/
  breaksLine : Bool := false

/-- Reads the words of a plain scalar, each after a gap. In a block the lines after the first have
    to be at least `indent` deep. The bound is on the number of words. -/
def plainWords (inFlow : Bool) (indent : Int) : (bound : Nat) → (gap : List Char) → Cursor → Bool →
    ScalarText
  | 0, _, c, breaksLine => ⟨[], c, breaksLine⟩
  | bound + 1, gap, c, breaksLine =>
    if c.peek == '#' then ⟨[], c, breaksLine⟩
    else
      let (word, rest) := plainWord inFlow c.rest
      if word.isEmpty then ⟨[], c, breaksLine⟩
      else
        let next := plainGap (c.past word rest)
        if next.value.isEmpty || next.cursor.peek == '#'
            || (!inFlow && (next.cursor.mark.column : Int) < indent) then
          ⟨gap ++ word, next.cursor, next.breaksLine⟩
        else
          let others := plainWords inFlow indent bound next.value next.cursor next.breaksLine
          { others with text := gap ++ word ++ others.text }

/-- Reads a plain scalar of a text with `size` characters. -/
def plainScalar (size : Nat) (inFlow : Bool) (indent : Int) (c : Cursor) : ScalarText :=
  plainWords inFlow indent (size + 1) [] c false

/-! ## Quoted scalars -/

/-- What a character stands for after a backslash. -/
def escapeValue? (c : Char) : Option Char :=
  match c with
  | '0' => some '\x00'
  | 'a' => some '\x07'
  | 'b' => some '\x08'
  | 't' => some '\t'
  | '\t' => some '\t'
  | 'n' => some '\n'
  | 'v' => some '\x0b'
  | 'f' => some '\x0c'
  | 'r' => some '\r'
  | 'e' => some '\x1b'
  | ' ' => some ' '
  | '\x22' => some '\x22'
  | '\x5c' => some '\x5c'
  | '/' => some '/'
  | 'N' => some '\x85'
  | '_' => some '\xa0'
  | 'L' => some '\u2028'
  | 'P' => some '\u2029'
  | _ => none

/-- How many hexadecimal digits follow a letter after a backslash. -/
def escapeWidth? (c : Char) : Option Nat :=
  match c with
  | 'x' => some 2
  | 'u' => some 4
  | 'U' => some 8
  | _ => none

/-- The value of a hexadecimal digit. -/
def hexDigit? (c : Char) : Option Nat :=
  if '0' ≤ c && c ≤ '9' then some (c.toNat - 48)
  else if 'A' ≤ c && c ≤ 'F' then some (c.toNat - 55)
  else if 'a' ≤ c && c ≤ 'f' then some (c.toNat - 87)
  else none

/-- The number that hexadecimal digits stand for. -/
def hexValue (cs : List Char) : Nat := cs.foldl (fun n c => 16 * n + (hexDigit? c).getD 0) 0

/-- Goes over empty lines inside quotes; the cursor is at the begin of a line. The bound is on the
    number of lines. -/
def quotedBreaks : (bound : Nat) → Cursor → Except LoadError (List Char × Cursor)
  | 0, c => return ([], c)
  | bound + 1, c => do
    if c.atDocumentMark then throw (.found c.mark .documentMarkInQuotes)
    let c := c.dropWhile isBlank
    if isBreak c.peek then
      let (breaks, rest) ← quotedBreaks bound c.next
      return (breakValue c.peek :: breaks, rest)
    else return ([], c)

/-- Goes over the blanks and line ends between two words inside quotes, in a text with `size`
    characters. -/
def quotedGap (size : Nat) (c : Cursor) : Except LoadError (List Char × Cursor) := do
  let (blanks, c) := c.takeWhile isBlank
  if c.rest.isEmpty then throw (.found c.mark .unclosedQuote)
  else if isBreak c.peek then
    let (breaks, rest) ← quotedBreaks (size + 1) c.next
    return (foldBreaks c.peek breaks, rest)
  else return (blanks, c)

/-- Reads what follows a backslash, in a text with `size` characters. -/
def escape (size : Nat) (c : Cursor) : Except LoadError (List Char × Cursor) := do
  match escapeValue? c.peek, escapeWidth? c.peek with
  | some value, _ => return ([value], c.next)
  | none, some width =>
    let c := c.next
    let digits := c.rest.take width
    let code := hexValue digits
    if digits.any fun d => (hexDigit? d).isNone then throw (.found c.mark .badEscapeDigits)
    else if digits.length < width then throw (.found c.mark .escapeCutOff)
    else if 0x10FFFF < code then throw (.breakdown (.noCharacter code))
    else return ([Text.ofCode code], c.skip width)
  | none, none =>
    if isBreak c.peek then quotedBreaks (size + 1) c.next
    else throw (.found c.mark (.unknownEscape c.peek))

/-- Reads a word inside quotes, up to a gap or the closing quote, in a text with `size` characters.
    The bound is on the number of its parts. -/
def quotedWord (size : Nat) (quote : Char) :
    (bound : Nat) → Cursor → Except LoadError (List Char × Cursor)
  | 0, c => return ([], c)
  | bound + 1, c => do
    let plain := fun x => !(x == '\x27' || x == '\x22' || x == '\x5c' || isGap x)
    let (part, c) := c.takeWhile plain
    let isDouble := quote == '\x22'
    let x := c.peek
    if !isDouble && x == '\x27' && c.peekAt 1 == '\x27' then
      let (more, rest) ← quotedWord size quote bound (c.skip 2)
      return (part ++ '\x27' :: more, rest)
    else if (isDouble && x == '\x27') || (!isDouble && (x == '\x22' || x == '\x5c')) then
      let (more, rest) ← quotedWord size quote bound c.next
      return (part ++ x :: more, rest)
    else if isDouble && x == '\x5c' then
      let (value, rest) ← escape size c.next
      let (more, rest) ← quotedWord size quote bound rest
      return (part ++ value ++ more, rest)
    else return (part, c)

/-- Reads words and gaps up to the closing quote, in a text with `size` characters. The bound is on
    the number of words. -/
def quotedWords (size : Nat) (quote : Char) :
    (bound : Nat) → Cursor → Except LoadError (List Char × Cursor)
  | 0, c => return ([], c)
  | bound + 1, c => do
    let (word, c) ← quotedWord size quote (size + 1) c
    if c.peek == quote then return (word, c.next)
    else
      let (gap, c) ← quotedGap size c
      let (more, c) ← quotedWords size quote bound c
      return (word ++ gap ++ more, c)

/-- Reads a quoted scalar of a text with `size` characters; the cursor is at the opening quote. -/
def quotedScalar (size : Nat) (c : Cursor) : Except LoadError ScalarText := do
  let (text, cursor) ← quotedWords size c.peek (size + 1) c.next
  return { text, cursor }

end Hazard.Yaml
