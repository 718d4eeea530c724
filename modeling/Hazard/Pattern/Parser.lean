import Hazard.Pattern.Basic
import Hazard.Pattern.Error
import Hazard.Text.CharacterName
import Hazard.Text.Name

set_option autoImplicit false

/-! # Reading written patterns

A written pattern is first cut into tokens: single characters, and a backslash together with the
character after it. The reader always sees one token ahead, and a backslash at the very end is
noticed as soon as it would be the token ahead. A mistake is reported with its position. -/

namespace Hazard

namespace PatternReader

/-- One or two characters of a pattern and where they stand. -/
structure Token where
  text : List Char
  position : Nat
  deriving Repr

/-- Cuts characters into tokens. A backslash at the end is left out. -/
def tokenize (position : Nat) : List Char → List Token
  | [] => []
  | '\x5c' :: c :: rest => ⟨['\x5c', c], position⟩ :: tokenize (position + 2) rest
  | c :: rest => if c == '\x5c' then [] else ⟨[c], position⟩ :: tokenize (position + 1) rest

/-- Whether the last token is a backslash without a character after it. -/
def endsInBackslash : List Char → Bool
  | [] => false
  | '\x5c' :: _ :: rest => endsInBackslash rest
  | c :: rest => c == '\x5c' || endsInBackslash rest

/-- How the characters of a part of a pattern are to be taken. -/
structure Flags where
  fold : Bool := false
  lines : Bool := false
  lineBreaks : Bool := false
  spaced : Bool := false
  ascii : Bool := false
  deriving Repr

/-- How the case of letters is taken. -/
def Flags.casing (flags : Flags) : Casing :=
  if !flags.fold then .kept else if flags.ascii then .asciiIgnored else .ignored

/-- What the reader knows: the tokens ahead, and the groups opened and closed so far. -/
structure State where
  ahead : List Token
  length : Nat
  brokenEnd : Bool
  flags : Flags := {}
  /-- The number of the next group. -/
  nextGroup : Nat := 1
  /-- The groups that have been closed, with the fewest and most characters they take. -/
  closed : List (Nat × Nat × Option Nat) := []
  names : List (String × Nat) := []
  /-- Inside a look behind, the number of the first group that belongs to it. -/
  behindFrom : Option Nat := none
  /-- The letters of the flags that have been set for the whole pattern. -/
  wholeFlags : List Char := []
  /-- The groups that have to be there in the end, with the positions where they are asked for. -/
  awaited : List (Nat × Nat) := []
  deriving Repr

/-- Reading a part of a pattern. -/
abbrev Reader := StateT State (Except PatternError)

/-- The token ahead. -/
def peek : Reader (Option (List Char)) := return (← get).ahead.head?.map (·.text)

/-- The position of the token ahead. -/
def tell : Reader Nat := do
  let s ← get
  match s.ahead with
  | t :: _ => return t.position
  | [] => return if s.brokenEnd then s.length - 1 else s.length

/-- Refuses the pattern, `back` characters before the token ahead. -/
def refuse {α : Type} (m : PatternMistake) (back : Nat := 0) : Reader α := do
  throw (.mistake m ((← tell) - back))

/-- Moves on by one token. -/
def advance : Reader Unit := do
  let s ← get
  let rest := s.ahead.drop 1
  if !s.ahead.isEmpty && rest.isEmpty && s.brokenEnd then
    throw (.mistake .backslashAtEnd (s.length - 1))
  set { s with ahead := rest }

/-- Takes the token ahead. -/
def take : Reader (Option (List Char)) := do
  let t ← peek
  advance
  return t

/-- Takes the token ahead if it is the given character. -/
def accept (c : Char) : Reader Bool := do
  if (← peek) == some [c] then
    advance
    return true
  else return false

/-- Takes up to `n` single characters that pass a test. -/
def takeSome (test : Char → Bool) : Nat → Reader (List Char)
  | 0 => return []
  | n + 1 => do
    match ← peek with
    | some [c] =>
      if test c then
        advance
        return c :: (← takeSome test n)
      else return []
    | _ => return []

/-- Takes all single characters ahead that pass a test. -/
def takeAll (test : Char → Bool) : Reader (List Char) := do
  takeSome test (← get).ahead.length

/-- Takes the characters of a name up to its end. -/
def takeName (terminator : Char) (missing : PatternMistake) (name : List Char) :
    (fuel : Nat) → Reader (List Char)
  | 0 => return name
  | fuel + 1 => do
    match ← take with
    | none =>
      if name.isEmpty then refuse missing
      else refuse (.unclosedName terminator.toString) name.length
    | some t =>
      if t == [terminator] then
        if name.isEmpty then refuse missing 1 else return name
      else takeName terminator missing (name ++ t) fuel

/-- Takes a name up to its end. -/
def takeUntil (terminator : Char) (missing : PatternMistake) : Reader (List Char) := do
  takeName terminator missing [] ((← get).ahead.length + 1)

/-- Takes the name of a group. -/
def groupName (terminator : Char) : Reader String := do
  let cs ← takeUntil terminator .missingName
  let name := String.ofList cs
  if !Text.isName cs then refuse (.badName name) (cs.length + 1)
  return name

/-! ## Escapes -/

/-- Whether a character is a hexadecimal digit. -/
def isHex (c : Char) : Bool :=
  c.isDigit || ('a'.toNat ≤ c.toNat && c.toNat ≤ 'f'.toNat) ||
    ('A'.toNat ≤ c.toNat && c.toNat ≤ 'F'.toNat)

/-- Whether a character is an octal digit. -/
def isOctal (c : Char) : Bool := '0'.toNat ≤ c.toNat && c.toNat ≤ '7'.toNat

/-- The value of digits in a base. -/
def valueOf (base : Nat) (cs : List Char) : Nat :=
  cs.foldl (fun n c =>
    base * n + (if c.isDigit then c.toNat - '0'.toNat else c.toLower.toNat - 'a'.toNat + 10)) 0

/-- Characters written by a backslash and a letter. -/
def controlEscape? : Char → Option Char
  | 'a' => some '\x07'
  | 'f' => some '\x0c'
  | 'n' => some '\n'
  | 'r' => some '\r'
  | 't' => some '\t'
  | 'v' => some '\x0b'
  | '\x5c' => some '\x5c'
  | _ => none

/-- Kinds of characters written by a backslash and a letter, with whether they are negated. -/
def kindEscape? : Char → Option (CharKind × Bool)
  | 'd' => some (.digit, false)
  | 'D' => some (.digit, true)
  | 's' => some (.blank, false)
  | 'S' => some (.blank, true)
  | 'w' => some (.word, false)
  | 'W' => some (.word, true)
  | _ => none

/-- A character given by a fixed number of hexadecimal digits. -/
def hexEscape (letter : Char) (count : Nat) : Reader Char := do
  let digits ← takeSome isHex count
  let escape := '\x5c' :: letter :: digits
  if digits.length != count then
    refuse (.incompleteEscape (String.ofList escape)) escape.length
  let n := valueOf 16 digits
  if Overflow.codeLimit ≤ n then throw (.overflow .codePoint)
  if 0x10FFFF < n then refuse (.badEscape (String.ofList escape)) escape.length
  return Text.ofCode n

variable [CharacterNames]

/-- The character with a name, whose closing brace has been taken. Nothing is looked up by a half of
    a pair. -/
def characterNamed (name : List Char) : Reader Char :=
  if name.any Text.isHalf then refuse (.badEscape "\\N") 2
  else
    match CharacterNames.named? (String.ofList name) with
    | some c => return c
    | none => refuse (.unknownCharacter (String.ofList name)) (name.length + 4)

/-- A character given by its name. -/
def namedEscape : Reader Char := do
  if !(← accept '\x7b') then refuse .missingBrace
  characterNamed (← takeUntil '\x7d' .missingCharacterName)

/-- A character given by octal digits, of which `first` has been taken. -/
def octalEscape (first : List Char) : Reader Char := do
  let digits := first ++ (← takeSome isOctal 2)
  let escape := '\x5c' :: digits
  if 0o377 < valueOf 8 digits then
    refuse (.octalTooLarge (String.ofList escape)) escape.length
  return Char.ofNat (valueOf 8 digits)

/-- An escape that stands for one character, inside a set or outside of one. -/
def charEscape (c : Char) : Reader Char := do
  match controlEscape? c with
  | some control => return control
  | none =>
    match c with
    | 'x' => hexEscape c 2
    | 'u' => hexEscape c 4
    | 'U' => hexEscape c 8
    | 'N' => namedEscape
    | _ =>
      if c.isAlpha || c.isDigit then refuse (.badEscape (String.ofList ['\x5c', c])) 2
      else return c

/-- Whether a group can be referred to here. -/
def checkGroup (number back : Nat) : Reader Unit := do
  let s ← get
  if (s.closed.lookup number).isNone then refuse .openGroup back
  match s.behindFrom with
  | some first => if first ≤ number then refuse .groupOfSameLookBehind
  | none => pure ()

/-- A reference to a group by its number, or a character given by three octal digits. -/
def numberedEscape (flags : Flags) (first : Char) : Reader Pattern := do
  let second ← takeSome Char.isDigit 1
  let digits := first :: second
  let third ← if digits.length == 2 && digits.all isOctal then takeSome isOctal 1 else pure []
  let escape := '\x5c' :: digits ++ third
  if !third.isEmpty then
    let n := valueOf 8 (digits ++ third)
    if 0o377 < n then refuse (.octalTooLarge (String.ofList escape)) escape.length
    return .char (Char.ofNat n) flags.casing
  let number := valueOf 10 digits
  if number < (← get).nextGroup then
    checkGroup number escape.length
    return .again number flags.casing
  refuse (.unknownGroup number) (escape.length - 1)

/-- An escape outside of a set. -/
def escape (flags : Flags) (c : Char) : Reader Pattern := do
  match kindEscape? c with
  | some (kind, negated) => return .set false [.kind kind negated flags.ascii] flags.casing
  | none =>
    match c with
    | 'A' => return .anchor .textStart
    | 'Z' => return .anchor .textEnd
    | 'b' => return .anchor (.boundary false flags.ascii)
    | 'B' => return .anchor (.boundary true flags.ascii)
    | '0' => return .char (← octalEscape ['0']) flags.casing
    | _ =>
      if c.isDigit then numberedEscape flags c
      else return .char (← charEscape c) flags.casing

/-- An escape inside a set. -/
def setEscape (flags : Flags) (c : Char) : Reader SetItem := do
  match kindEscape? c with
  | some (kind, negated) => return .kind kind negated flags.ascii
  | none =>
    if c == 'b' then return .char '\x08'
    else if isOctal c then return .char (← octalEscape [c])
    else return .char (← charEscape c)

/-! ## Sets -/

/-- One end of a range, or a member of a set on its own. -/
def setMember (flags : Flags) : List Char → Reader SetItem
  | ['\x5c', c] => setEscape flags c
  | c :: _ => return .char c
  | [] => return .char ' '

/-- Refuses a pattern at a fixed position. -/
def refuseAt {α : Type} (m : PatternMistake) (position : Nat) : Reader α :=
  throw (.mistake m position)

/-- The members of a set up to the closing bracket. A closing bracket at the beginning is a
    member. -/
def setItems (flags : Flags) (start : Nat) (items : List SetItem) :
    (fuel : Nat) → Reader (List SetItem)
  | 0 => return items
  | fuel + 1 => do
    match ← take with
    | none => refuseAt .unclosedSet start
    | some this =>
      if this == [']'] && !items.isEmpty then return items
      let low ← setMember flags this
      if ← accept '-' then
        match ← take with
        | none => refuseAt .unclosedSet start
        | some that =>
          if that == [']'] then return items ++ [low, .char '-']
          let high ← setMember flags that
          let bad := PatternMistake.badRange (String.ofList this) (String.ofList that)
          match low, high with
          | .char a, .char b =>
            if Text.code b < Text.code a then refuse bad (this.length + 1 + that.length)
            setItems flags start (items ++ [.range a b]) fuel
          | _, _ => refuse bad (this.length + 1 + that.length)
      else setItems flags start (items ++ [low]) fuel

/-- A set, after its opening bracket at `start`. -/
def charSet (flags : Flags) (start : Nat) : Reader Pattern := do
  let negated ← accept '^'
  let items := (← setItems flags start [] ((← get).ahead.length + 1)).eraseDups
  match negated, items with
  | false, [.char c] => return .char c flags.casing
  | _, _ => return .set negated items flags.casing

/-! ## Repetitions -/

/-- The number of repetitions from which on a pattern is refused. -/
def repeatLimit : Nat := 4294967295

/-- A number of repetitions. -/
def repeatCount (digits : List Char) : Reader Nat :=
  match Text.natural digits with
  | .error e => throw (.numeral e)
  | .ok n => if repeatLimit ≤ n then throw (.overflow .repetitions) else return n

/-- Numbers of repetitions in braces, after the opening brace. Without the right form nothing is
    taken. -/
def braces : Reader (Option (Nat × Option Nat)) := do
  if (← peek) == some ['\x7d'] then return none
  let start ← get
  let position ← tell
  let low ← takeAll Char.isDigit
  let high ← if ← accept ',' then takeAll Char.isDigit else pure low
  if !(← accept '\x7d') then
    set start
    return none
  let least ← if low.isEmpty then pure 0 else repeatCount low
  if high.isEmpty then return some (least, none)
  let most ← repeatCount high
  if most < least then refuseAt .leastAboveMost position
  return some (least, some most)

/-- A sequence as one pattern. -/
def joined : List Pattern → Pattern
  | [] => .empty
  | [p] => p
  | p :: rest => .seq p (joined rest)

/-- What has been read of a sequence, and whether it can be repeated. -/
inductive Piece where
  /-- A pattern, or the sequence in a group that is there only to hold it together. -/
  | plain (sequence : List Pattern)
  | anchor (p : Pattern)
  | repeated (p : Pattern)

namespace Piece

/-- The patterns of a piece. -/
def patterns : Piece → List Pattern
  | plain sequence => sequence
  | anchor p => [p]
  | repeated p => [p]

end Piece

/-- The sequence of pieces that are given last one first. -/
def sequence (pieces : List Piece) : List Pattern := pieces.reverse.flatMap (·.patterns)

/-- The mark after a repetition that tells how often to repeat. -/
def preference : Reader Preference := do
  if ← accept '?' then return .fewer
  else if ← accept '+' then return .most
  else return .more

/-- Repeats the last piece of a sequence; `start` is where the repetition is written. -/
def repeatLast (pieces : List Piece) (start least : Nat) (most : Option Nat) :
    Reader (List Piece) := do
  match pieces with
  | [] => refuseAt .nothingToRepeat start
  | .anchor _ :: _ => refuseAt .nothingToRepeat start
  | .repeated _ :: _ => refuseAt .repeatedTwice start
  | .plain body :: before =>
    return .repeated (.repeats (← preference) least most (joined body)) :: before

/-! ## Flags -/

/-- The letters of the flags. -/
def flagLetters : List Char := ['i', 'L', 'm', 's', 'x', 'a', 't', 'u']

/-- The flag that makes a pattern a template. It is for whole patterns only. -/
def templateFlag : Char := 't'

/-- Sets a flag. -/
def Flags.put (flags : Flags) (value : Bool) : Char → Flags
  | 'i' => { flags with fold := value }
  | 'm' => { flags with lines := value }
  | 's' => { flags with lineBreaks := value }
  | 'x' => { flags with spaced := value }
  | 'a' => { flags with ascii := value }
  | 'u' => { flags with ascii := false }
  | _ => flags

/-- A flag, or the mistake that it is none. -/
def flagMistake (c : List Char) (m : PatternMistake) : PatternMistake :=
  if c.all Text.isLetter then .unknownFlag else m

/-- Flags to be set, starting with `c`. The result also says what ends them. -/
def flagsOn (on : List Char) (c : Char) : (fuel : Nat) → Reader (List Char × Char)
  | 0 => return (on, ')')
  | fuel + 1 => do
    if c == 'L' then refuse .bytesFlag
    let on := on ++ [c]
    if on.contains 'a' && on.contains 'u' then refuse .clashingFlags
    match ← take with
    | none => refuse .flagsUnended
    | some [d] =>
      if d == ')' || d == '-' || d == ':' then return (on, d)
      else if flagLetters.contains d then flagsOn on d fuel
      else refuse (flagMistake [d] .flagsUnended) 1
    | some t => refuse (flagMistake t .flagsUnended) t.length

/-- Flags to be cleared, starting with `c`. -/
def flagsOff (off : List Char) (c : Char) : (fuel : Nat) → Reader (List Char)
  | 0 => return off
  | fuel + 1 => do
    if c == 'a' || c == 'u' || c == 'L' then refuse .fixedFlag
    let off := off ++ [c]
    match ← take with
    | none => refuse .flagsUncolon
    | some [d] =>
      if d == ':' then return off
      else if flagLetters.contains d then flagsOff off d fuel
      else refuse (flagMistake [d] .flagsUncolon) 1
    | some t => refuse (flagMistake t .flagsUncolon) t.length

/-- The flags of a group, starting with `c`; `none` when they are meant for the whole pattern, which
    then has them. -/
def groupFlags (flags : Flags) (c : Char) : Reader (Option Flags) := do
  let fuel := (← get).ahead.length + 1
  let (on, ended) ← if c == '-' then pure ([], '-') else flagsOn [] c fuel
  if ended == ')' then
    modify fun s =>
      { s with flags := on.foldl (Flags.put · true) s.flags, wholeFlags := s.wholeFlags ++ on }
    return none
  if on.contains templateFlag then refuse .flagOnForWhole 1
  let off ←
    if ended == '-' then
      match ← take with
      | none => refuse .missingFlag
      | some [d] =>
        if flagLetters.contains d then flagsOff [] d fuel
        else refuse (flagMistake [d] .missingFlag) 1
      | some t => refuse (flagMistake t .missingFlag) t.length
    else pure []
  if off.contains templateFlag then refuse .flagOffForWhole 1
  if on.any off.contains then refuse .flagOnAndOff 1
  return some (off.foldl (Flags.put · false) (on.foldl (Flags.put · true) flags))

/-! ## Groups and alternatives -/

/-- Skips a comment up to its closing parenthesis; `start` is where it begins. -/
def skipComment (start : Nat) : (fuel : Nat) → Reader Unit
  | 0 => return ()
  | fuel + 1 => do
    match ← peek with
    | none => refuseAt .unclosedComment start
    | some t =>
      advance
      if t == [')'] then return () else skipComment start fuel

/-- Skips the rest of a line. -/
def skipLine : (fuel : Nat) → Reader Unit
  | 0 => return ()
  | fuel + 1 => do
    match ← take with
    | none => return ()
    | some t => if t == ['\n'] then return () else skipLine fuel

/-- Expects the end of the group that begins at `start`. -/
def closeGroup (start : Nat) : Reader Unit := do
  if !(← accept ')') then refuseAt .unclosedGroup start

/-- The number of a new group. -/
def openNamed (name : Option String) : Reader Nat := do
  let s ← get
  let number := s.nextGroup
  match name with
  | none => set { s with nextGroup := number + 1 }
  | some n =>
    match s.names.lookup n with
    | some earlier =>
      set { s with nextGroup := number + 1 }
      refuse (.nameTwice n number earlier) (n.length + 1)
    | none => set { s with nextGroup := number + 1, names := (n, number) :: s.names }
  return number

/-- The fewest and most characters a pattern takes, with the groups closed so far. -/
def widthsOf (p : Pattern) : Reader (Nat × Option Nat) := do
  let s ← get
  return p.widths fun n => (s.closed.lookup n).getD (0, none)

/-- How a group is to be read after what marks it. -/
inductive GroupKind where
  | capture (name : Option String)
  | plain
  /-- A group with flags of its own. -/
  | flagged (flags : Flags)
  | once
  | ahead (positive : Bool)
  | behind (positive : Bool)
  /-- Two alternatives, of which a group decides. -/
  | given (number : Nat)
  /-- Nothing is left to be read: a reference by name, a comment. -/
  | done (piece : Option Piece)
  | wholeFlags

/-- The number from which on no group can be referred to. -/
def groupLimit : Nat := 1073741823

/-- The number of the group that decides between two alternatives, given by number or by name. -/
def decidingGroup : Reader Nat := do
  let cs ← takeUntil ')' .missingName
  let text := String.ofList cs
  let back := cs.length + 1
  let number ←
    if Text.isName cs then
      match (← get).names.lookup text with
      | some number => pure number
      | none => refuse (.unknownName text) back
    else
      match Text.integer? text with
      | none => refuse (.badName text) back
      | some n =>
        if n < 0 then refuse (.badName text) back
        if n == 0 then refuse .badGroupNumber back
        if groupLimit ≤ n then refuse (.unknownGroup n.toNat) back
        let position := (← tell) - back
        modify fun s => { s with awaited := s.awaited ++ [(n.toNat, position)] }
        pure n.toNat
  if (← get).behindFrom.isSome then checkGroup number 0
  return number

/-- What follows an opening parenthesis and a question mark; `start` is where the group begins. -/
def groupKind (flags : Flags) (start : Nat) : Reader GroupKind := do
  match ← take with
  | none => refuse .unexpectedEnd
  | some ['P'] =>
    if ← accept '<' then return .capture (some (← groupName '>'))
    else if ← accept '=' then
      let name ← groupName ')'
      match (← get).names.lookup name with
      | none => refuse (.unknownName name) (name.length + 1)
      | some number =>
        checkGroup number (name.length + 1)
        return .done (some (.plain [.again number flags.casing]))
    else
      match ← take with
      | none => refuse .unexpectedEnd
      | some t => refuse (.unknownExtension ("P" ++ String.ofList t)) (t.length + 2)
  | some [':'] => return .plain
  | some ['#'] =>
    skipComment start ((← get).ahead.length + 1)
    return .done none
  | some ['='] => return .ahead true
  | some ['!'] => return .ahead false
  | some ['<'] =>
    match ← take with
    | none => refuse .unexpectedEnd
    | some ['='] => return .behind true
    | some ['!'] => return .behind false
    | some t => refuse (.unknownExtension ("<" ++ String.ofList t)) (t.length + 2)
  | some ['('] => return .given (← decidingGroup)
  | some ['>'] => return .once
  | some t =>
    match t with
    | [c] =>
      if flagLetters.contains c || c == '-' then
        match ← groupFlags flags c with
        | some flags => return .flagged flags
        | none => return .wholeFlags
      else refuse (.unknownExtension (String.ofList t)) (t.length + 1)
    | _ => refuse (.unknownExtension (String.ofList t)) (t.length + 1)

/-- Whether a character separates the parts of a spaced pattern. -/
def isSpace (t : List Char) : Bool :=
  match t with
  | [c] => c == ' ' || (9 ≤ c.toNat && c.toNat ≤ 13)
  | _ => false

/-! ## Alternatives

What all alternatives begin with is put in front of them. If nothing but single characters and sets
is left, the alternatives are one set. -/

/-- Whether a pattern has no parts, so that it is the same wherever it stands. -/
def isSimple : Pattern → Bool
  | .char .. => true
  | .any _ => true
  | .set .. => true
  | .anchor _ => true
  | .again .. => true
  | _ => false

/-- What a sequence and all others begin with. -/
def sharedFront : List Pattern → List (List Pattern) → List Pattern
  | [], _ => []
  | p :: rest, others =>
    if isSimple p && others.all (·.head? == some p) then
      p :: sharedFront rest (others.map (·.drop 1))
    else []

/-- The members that an alternative adds to a set. -/
def members? : List Pattern → Option (List SetItem)
  | [.char c _] => some [.char c]
  | [.set false items _] => some items
  | _ => none

/-- Alternatives, of which the first that fits is taken. -/
def firstOf : List (List Pattern) → Pattern
  | [] => .empty
  | [branch] => joined branch
  | branch :: rest => .either (joined branch) (firstOf rest)

/-- Alternatives as a sequence. -/
def merged (casing : Casing) : List (List Pattern) → List Pattern
  | [] => []
  | [branch] => branch
  | branch :: others =>
    let front := sharedFront branch others
    let rests := (branch :: others).map (·.drop front.length)
    match rests.mapM members? with
    | some items => front ++ [.set false items.flatten.eraseDups casing]
    | none => front ++ [firstOf rests]

/-! ## Sequences -/

/-- What a token stands for in a sequence. -/
inductive Role where
  /-- An escape, with the character after the backslash. -/
  | escape (c : Char)
  | set
  | any
  | start
  | finish
  | repetition (least : Nat) (most : Option Nat)
  | braces
  | group
  /-- A character that stands for itself. -/
  | char (c : Char)
  | nothing

/-- The role of a token with the given text. -/
def Role.ofText : List Char → Role
  | ['\x5c', c] => escape c
  | ['['] => set
  | ['.'] => any
  | ['^'] => start
  | ['$'] => finish
  | ['*'] => repetition 0 none
  | ['+'] => repetition 1 none
  | ['?'] => repetition 0 (some 1)
  | ['\x7b'] => braces
  | ['('] => group
  | c :: _ => char c
  | [] => nothing

mutual

/-- Alternatives up to a closing parenthesis or the end. At the top of a pattern, flags set for the
    whole pattern hold from the next alternative on. -/
def alternatives (top : Bool) (flags : Flags) : (fuel : Nat) → Reader (List Pattern)
  | 0 => return []
  | fuel + 1 => do
    let first := sequence (← pieces top top flags [] fuel)
    if ← accept '|' then
      let whole := (← get).flags
      let flags := if top then whole else flags
      return merged flags.casing (first :: (← laterAlternatives top flags fuel))
    else return first

/-- The alternatives after the first one. -/
def laterAlternatives (top : Bool) (flags : Flags) : (fuel : Nat) → Reader (List (List Pattern))
  | 0 => return []
  | fuel + 1 => do
    let first := sequence (← pieces top false flags [] fuel)
    if ← accept '|' then return first :: (← laterAlternatives top flags fuel)
    else return [first]

/-- The second of two alternatives, of which a group decides. It can be left out. -/
def otherwise (flags : Flags) : (fuel : Nat) → Reader Pattern
  | 0 => return .empty
  | fuel + 1 => do
    if ← accept '|' then
      let no := joined (sequence (← pieces false false flags [] fuel))
      if (← peek) == some ['|'] then refuse .thirdBranch
      return no
    else return .empty

/-- The pieces of a sequence, last one first. Flags for the whole pattern are allowed only at its
    very beginning, where `flagsAllowed` is set. -/
def pieces (top flagsAllowed : Bool) (flags : Flags) (before : List Piece) :
    (fuel : Nat) → Reader (List Piece)
  | 0 => return before
  | fuel + 1 => do
    match ← peek with
    | none => return before
    | some t =>
      if t == ['|'] || t == [')'] then return before
      let start ← tell
      advance
      if flags.spaced && isSpace t then pieces top flagsAllowed flags before fuel
      else if flags.spaced && t == ['#'] then
        skipLine ((← get).ahead.length + 1)
        pieces top flagsAllowed flags before fuel
      else
        let push := fun (piece : Piece) => pieces top flagsAllowed flags (piece :: before) fuel
        let add := fun (p : Pattern) => push (.plain [p])
        let repeating := fun (least : Nat) (most : Option Nat) => do
          pieces top flagsAllowed flags (← repeatLast before start least most) fuel
        match Role.ofText t with
        | .escape c =>
          match ← escape flags c with
          | .anchor a => push (.anchor (.anchor a))
          | p => add p
        | .set => add (← charSet flags start)
        | .any => add (.any flags.lineBreaks)
        | .start => push (.anchor (.anchor (if flags.lines then .lineStart else .textStart)))
        | .finish => push (.anchor (.anchor (if flags.lines then .lineEnd else .lastLineEnd)))
        | .repetition least most => repeating least most
        | .braces =>
          match ← braces with
          | some (least, most) => repeating least most
          | none => add (.char '\x7b' flags.casing)
        | .group =>
          let kind ← if ← accept '?' then groupKind flags start else pure (.capture none)
          match kind with
          | .done none => pieces top flagsAllowed flags before fuel
          | .done (some piece) => push piece
          | .wholeFlags =>
            if !flagsAllowed || !before.isEmpty then refuseAt .lateFlags start
            pieces top flagsAllowed (← get).flags before fuel
          | .capture name =>
            let number ← openNamed name
            let body := joined (← alternatives false flags fuel)
            closeGroup start
            let widths ← widthsOf body
            modify fun s => { s with closed := (number, widths) :: s.closed }
            add (.group number body)
          | .plain =>
            let body ← alternatives false flags fuel
            closeGroup start
            push (.plain body)
          | .flagged inner =>
            let body ← alternatives false inner fuel
            closeGroup start
            add (.seq (joined body) .empty)
          | .once =>
            let body ← alternatives false flags fuel
            closeGroup start
            add (.once (joined body))
          | .ahead positive =>
            let body ← alternatives false flags fuel
            closeGroup start
            add (.ahead positive (joined body))
          | .behind positive =>
            let outer := (← get).behindFrom
            modify fun s => { s with behindFrom := some (outer.getD s.nextGroup) }
            let body := joined (← alternatives false flags fuel)
            modify fun s => { s with behindFrom := outer }
            closeGroup start
            let (low, _) ← widthsOf body
            add (.behind positive low body)
          | .given number =>
            let yes := joined (sequence (← pieces false false flags [] fuel))
            let no ← otherwise flags fuel
            closeGroup start
            add (.given number yes no)
        | .char c => add (.char c flags.casing)
        | .nothing => pieces top flagsAllowed flags before fuel

end

/-! ## Where a match can begin

A pattern that begins with a set is looked for only where a character of that set stands, and there
the kinds of characters are taken as the whole pattern takes them, even if the set stands in a group
with flags of its own. -/

/-- Whether a character has another form, where case is ignored. -/
def isCased (casing : Casing) (c : Char) : Bool :=
  match casing with
  | .kept => false
  | .asciiIgnored => c.isAlpha
  | .ignored => Text.lower c != c || Text.upper c != c

/-- Whether a part of a set is the same with and without case. -/
def isCaseless (casing : Casing) : SetItem → Bool
  | .char c => !isCased casing c
  | .range low high =>
    casing == .kept || (Text.code high ≤ 0xFFFF &&
      (List.range' (Text.code low) (Text.code high + 1 - Text.code low)).all fun n =>
        !isCased casing (Char.ofNat n))
  | .kind .. => true

/-- A part of a set as a pattern takes it that knows only ASCII characters, or all. -/
def takenAs (ascii : Bool) : SetItem → SetItem
  | .kind k negated _ => .kind k negated ascii
  | item => item

/-- What has to stand where a match begins: the set that the pattern begins with, in a group or not,
    if the whole pattern takes it in another way and case does not matter to it. -/
def opening? (ascii : Bool) : Pattern → Option Pattern
  | .set negated items casing =>
    let taken := items.map (takenAs ascii)
    if taken != items && items.all (isCaseless casing) then some (.set negated taken .kept)
    else none
  | .seq first _ => opening? ascii first
  | .group _ body => opening? ascii body
  | _ => none

/-! ## What cannot be searched for -/

/-- How long a text can be that is looked at behind a position. -/
def lookBehindLimit : Nat := 4294967295

/-- What is wrong with looking behind at a text with the given fewest and most characters. -/
def lookBehindFlaw? : Nat × Option Nat → Option PatternError
  | (low, high) =>
    if lookBehindLimit < low then some .longLookBehind
    else if high != some low then some .varyingLookBehind
    else none

/-- The first part of a pattern that keeps it from being searched for: a look behind at a text that
    is too long or can vary in length, and in a template a repetition. -/
def flaw? (template : Bool) (groupWidths : Nat → Nat × Option Nat) : Pattern → Option PatternError
  | .seq first rest =>
    (flaw? template groupWidths first).or (flaw? template groupWidths rest)
  | .either first second =>
    (flaw? template groupWidths first).or (flaw? template groupWidths second)
  | .given _ yes no => (flaw? template groupWidths yes).or (flaw? template groupWidths no)
  | .group _ body => flaw? template groupWidths body
  | .ahead _ body => flaw? template groupWidths body
  | .once body => flaw? template groupWidths body
  | .behind _ _ body =>
    (lookBehindFlaw? (body.widths groupWidths)).or (flaw? template groupWidths body)
  | .repeats preference _ _ body =>
    if template then some (.repeatsInTemplate preference) else flaw? template groupWidths body
  | _ => none

/-- The whole pattern. -/
def whole : Reader Pattern := do
  let s ← get
  if s.ahead.isEmpty && s.brokenEnd then throw (.mistake .backslashAtEnd (s.length - 1))
  let p := joined (← alternatives true {} (3 * s.length + 3))
  let s ← get
  if s.wholeFlags.contains 'a' && s.wholeFlags.contains 'u' then throw (.clash .asciiAndAll)
  if (← peek).isSome then refuse .unopenedGroup
  match s.awaited.find? fun (number, _) => s.nextGroup ≤ number with
  | some (number, position) => throw (.mistake (.unknownGroup number) position)
  | none =>
    let groupWidths := fun n => (s.closed.lookup n).getD (0, none)
    match flaw? (s.wholeFlags.contains templateFlag) groupWidths p, opening? s.flags.ascii p with
    | some e, _ => throw e
    | none, some start => return .seq (.ahead true start) p
    | none, none => return p

end PatternReader

/-- Reads a written pattern. -/
def Pattern.parse [CharacterNames] (s : String) : Except PatternError Pattern :=
  let cs := s.toList
  let start : PatternReader.State :=
    { ahead := PatternReader.tokenize 0 cs, length := cs.length
      brokenEnd := PatternReader.endsInBackslash cs }
  (PatternReader.whole.run start).map (·.1)

end Hazard
