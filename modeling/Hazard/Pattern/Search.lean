import Hazard.Pattern.Basic

set_option autoImplicit false

/-! # Searching for a pattern

The matcher is given what has to happen after the pattern, and answers with the first way in which
both succeed. An iteration of a repetition that takes no characters is allowed, but is the last
one, so every repetition ends. -/

namespace Hazard.Pattern

/-- A position in a text, with what the groups have matched so far. -/
structure Cursor where
  /-- The characters before the position, last one first. -/
  before : List Char
  after : List Char
  /-- How many characters are after the position. -/
  left : Nat := after.length
  groups : List (Nat × List Char) := []
  deriving DecidableEq, Repr

/-- What has to happen next. -/
abbrev Next := Cursor → Option Cursor

namespace Cursor

/-- Moves past the next character if it passes the test. -/
def accept (test : Char → Bool) (s : Cursor) (next : Next) : Option Cursor :=
  match s.after with
  | c :: rest =>
    if test c then next { s with before := c :: s.before, after := rest, left := s.left - 1 }
    else none
  | [] => none

/-- Moves past the given characters. -/
def acceptAll (same : Char → Char → Bool) (next : Next) : List Char → Cursor → Option Cursor
  | [], s => next s
  | c :: cs, s => s.accept (same c) (acceptAll same next cs)

/-- Whether the character before the position belongs to a word. -/
def afterWord (ascii : Bool) (s : Cursor) : Bool := s.before.head?.any (CharKind.word.holds ascii)

/-- Whether the character at the position belongs to a word. -/
def beforeWord (ascii : Bool) (s : Cursor) : Bool := s.after.head?.any (CharKind.word.holds ascii)

/-- Moves back by a number of characters, if there are as many. -/
def back? : Nat → Cursor → Option Cursor
  | 0, s => some s
  | n + 1, s =>
    match s.before with
    | c :: rest => back? n { s with before := rest, after := c :: s.after, left := s.left + 1 }
    | [] => none

end Cursor

/-- Whether a condition on the position holds. In an empty text there is neither a boundary of a
    word nor a place that is none. -/
def Cursor.meets (s : Cursor) : Anchor → Bool
  | .textStart => s.before.isEmpty
  | .lineStart => s.before.isEmpty || s.before.head? == some '\n'
  | .textEnd => s.after.isEmpty
  | .lastLineEnd => s.after.isEmpty || s.after == ['\n']
  | .lineEnd => s.after.isEmpty || s.after.head? == some '\n'
  | .boundary negated ascii =>
    !(s.before.isEmpty && s.after.isEmpty)
      && (s.afterWord ascii != s.beforeWord ascii) != negated

/-- The lower-case form of a character, where case is ignored. -/
def lowered (casing : Casing) (c : Char) : Char :=
  match casing with
  | .kept => c
  | .asciiIgnored => Text.asciiLower c
  | .ignored => Text.lower c

/-- Whether two characters are the same, perhaps but for case. -/
def sameChar (casing : Casing) (a b : Char) : Bool :=
  match casing with
  | .kept => a == b
  | .asciiIgnored => Text.asciiLower a == Text.asciiLower b
  | .ignored => Text.sameLetter a b

/-- Whether two characters are the same in what a group has matched, perhaps but for case. -/
def sameText (casing : Casing) (a b : Char) : Bool := lowered casing a == lowered casing b

/-- The code points of the characters that are the same as a character, perhaps but for case. -/
def formsOf (casing : Casing) (c : Char) : List Nat :=
  match casing with
  | .kept => [c.toNat]
  | .asciiIgnored =>
    let n := (Text.asciiLower c).toNat
    if 97 ≤ n && n ≤ 122 then [n, n - 32] else [n]
  | .ignored => Text.letterForms c

/-- The last code point of the basic plane. -/
def basicPlaneEnd : Nat := 0xFFFF

/-- Whether a set covers a character through a single character. Beyond the basic plane, where case
    is ignored and the set has other parts, that is compared with the lower-case form, so it covers
    nothing if it is in upper case. -/
def coversChar (casing : Casing) (isAlone : Bool) (c d : Char) : Bool :=
  if isAlone || Text.code d ≤ basicPlaneEnd then sameChar casing d c else lowered casing c == d

/-- Whether a set covers a character through a range: where case is ignored, through any character
    that is the same. A range beyond the basic plane is also compared with the upper-case form. -/
def coversRange (casing : Casing) (c low high : Char) : Bool :=
  let isInside := fun d => Text.code low ≤ Text.code d && Text.code d ≤ Text.code high
  (formsOf casing c).any (isInside <| Char.ofNat ·) ||
    (casing != .kept && basicPlaneEnd < Text.code high
      && isInside (Text.upper (lowered casing c)))

/-- Whether a set covers a character through one of its parts. -/
def covers (casing : Casing) (isAlone : Bool) (c : Char) : SetItem → Bool
  | .char d => coversChar casing isAlone c d
  | .range low high => coversRange casing c low high
  | .kind k negated ascii => k.holds ascii c != negated

/-- Repeats a step a fixed number of times. -/
def exactly (step : Next → Next) : Nat → Next → Next
  | 0, next => next
  | n + 1, next => step (exactly step n next)

/-- Repeats a step up to `room` times, as often as possible first. -/
def preferMore (step : Next → Next) (next : Next) : (room : Nat) → Next
  | 0, s => next s
  | room + 1, s =>
    let onward := fun (t : Cursor) =>
      if t.left == s.left then next t else preferMore step next room t
    (step onward s).or (next s)

/-- Repeats a step up to `room` times, as seldom as possible first. -/
def preferFewer (step : Next → Next) (next : Next) : (room : Nat) → Next
  | 0, s => next s
  | room + 1, s =>
    let onward := fun (t : Cursor) =>
      if t.left == s.left then next t else preferFewer step next room t
    (next s).or (step onward s)

/-- How often a step can be repeated beyond the least number of times: as the pattern says, or once
    for every character that is left and once more. -/
def room (least : Nat) (most : Option Nat) (s : Cursor) : Nat :=
  match most with
  | some n => n - least
  | none => s.left + 1

/-- Matches a pattern at a position and goes on. -/
def run : Pattern → Next → Next
  | empty, next, s => next s
  | char c casing, next, s => s.accept (sameChar casing c) next
  | any lineBreaks, next, s => s.accept (fun c => lineBreaks || c != '\n') next
  | set negated items casing, next, s =>
    s.accept (fun c => items.any (covers casing (items.length == 1) c) != negated) next
  | anchor a, next, s => if s.meets a then next s else none
  | seq a b, next, s => run a (run b next) s
  | either a b, next, s => (run a next s).or (run b next s)
  | group n body, next, s =>
    let close := fun (t : Cursor) =>
      let matched := s.after.take (s.left - t.left)
      next { t with groups := (n, matched) :: t.groups }
    run body close s
  | again n casing, next, s =>
    match s.groups.lookup n with
    | some matched => Cursor.acceptAll (sameText casing) next matched s
    | none => none
  | given n yes no, next, s =>
    if (s.groups.lookup n).isSome then run yes next s else run no next s
  | ahead positive body, next, s =>
    match run body some s with
    | some t => if positive then next { s with groups := t.groups } else none
    | none => if positive then none else next s
  | behind positive width body, next, s =>
    match (Cursor.back? width s).bind (run body some) with
    | some t => if positive then next { s with groups := t.groups } else none
    | none => if positive then none else next s
  | repeats preference least most body, next, s =>
    match preference with
    | .more =>
      exactly (run body) least (fun t => preferMore (run body) next (room least most t) t) s
    | .fewer =>
      exactly (run body) least (fun t => preferFewer (run body) next (room least most t) t) s
    | .most =>
      (exactly (run body) least (fun t => preferMore (run body) some (room least most t) t) s).bind
        next
  | once body, next, s => (run body some s).bind next

/-- Looks for a pattern from a position on, with `left` characters after it. -/
def searchFrom (p : Pattern) (before : List Char) (left : Nat) : List Char → Bool
  | [] => (run p some { before, after := [], left }).isSome
  | c :: rest =>
    (run p some { before, after := c :: rest, left }).isSome
      || searchFrom p (c :: before) (left - 1) rest

/-- Whether some part of a text is of the form that the pattern describes. -/
def search (p : Pattern) (text : String) : Bool :=
  p.searchFrom [] text.toList.length text.toList

end Hazard.Pattern
