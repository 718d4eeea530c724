import Hazard.Number
import Hazard.Pattern.Basic
import Hazard.Text.Numeral

set_option autoImplicit false

/-! # What can be wrong with a written pattern -/

namespace Hazard

/-- A mistake in a written pattern. -/
inductive PatternMistake where
  | backslashAtEnd
  | badEscape (escape : String)
  | incompleteEscape (escape : String)
  | octalTooLarge (escape : String)
  | unclosedSet
  | badRange (low high : String)
  | nothingToRepeat
  | repeatedTwice
  | leastAboveMost
  | unexpectedEnd
  | unknownExtension (text : String)
  | unclosedGroup
  | unclosedComment
  | unopenedGroup
  | unknownGroup (number : Nat)
  | openGroup
  | groupOfSameLookBehind
  | missingName
  | missingCharacterName
  | missingBrace
  | unknownCharacter (name : String)
  | badGroupNumber
  | thirdBranch
  | unclosedName (terminator : String)
  | badName (name : String)
  | unknownName (name : String)
  | nameTwice (name : String) (number earlier : Nat)
  | lateFlags
  | flagsUnended
  | unknownFlag
  | bytesFlag
  | clashingFlags
  | missingFlag
  | flagsUncolon
  | fixedFlag
  | flagOnForWhole
  | flagOffForWhole
  | flagOnAndOff
  deriving DecidableEq, Repr

namespace PatternMistake

/-- The wording of the mistakes. -/
def text : PatternMistake → String
  | backslashAtEnd => "bad escape (end of pattern)"
  | badEscape escape => "bad escape " ++ escape
  | incompleteEscape escape => "incomplete escape " ++ escape
  | octalTooLarge escape => s!"octal escape value {escape} outside of range 0-0o377"
  | unclosedSet => "unterminated character set"
  | badRange low high => s!"bad character range {low}-{high}"
  | nothingToRepeat => "nothing to repeat"
  | repeatedTwice => "multiple repeat"
  | leastAboveMost => "min repeat greater than max repeat"
  | unexpectedEnd => "unexpected end of pattern"
  | unknownExtension text => "unknown extension ?" ++ text
  | unclosedGroup => "missing ), unterminated subpattern"
  | unclosedComment => "missing ), unterminated comment"
  | unopenedGroup => "unbalanced parenthesis"
  | unknownGroup number => s!"invalid group reference {number}"
  | openGroup => "cannot refer to an open group"
  | groupOfSameLookBehind => "cannot refer to group defined in the same lookbehind subpattern"
  | missingName => "missing group name"
  | missingCharacterName => "missing character name"
  | missingBrace => "missing \x7b"
  | unknownCharacter name => "undefined character name " ++ Text.quoted name
  | badGroupNumber => "bad group number"
  | thirdBranch => "conditional backref with more than two branches"
  | unclosedName terminator => s!"missing {terminator}, unterminated name"
  | badName name => "bad character in group name " ++ Text.quoted name
  | unknownName name => "unknown group name " ++ Text.quoted name
  | nameTwice name number earlier =>
    s!"redefinition of group name {Text.quoted name} as group {number}; was group {earlier}"
  | lateFlags => "global flags not at the start of the expression"
  | flagsUnended => "missing -, : or )"
  | unknownFlag => "unknown flag"
  | bytesFlag => "bad inline flags: cannot use 'L' flag with a str pattern"
  | clashingFlags => "bad inline flags: flags 'a', 'u' and 'L' are incompatible"
  | missingFlag => "missing flag"
  | flagsUncolon => "missing :"
  | fixedFlag => "bad inline flags: cannot turn off flags 'a', 'u' and 'L'"
  | flagOnForWhole => "bad inline flags: cannot turn on global flag"
  | flagOffForWhole => "bad inline flags: cannot turn off global flag"
  | flagOnAndOff => "bad inline flags: flag turned on and off"

end PatternMistake

/-- Flags of a whole pattern that exclude each other. -/
inductive FlagClash where
  /-- The kinds of characters are to be those of ASCII, and those of all scripts. -/
  | asciiAndAll
  deriving DecidableEq, Repr

/-- The wording of the clashes. -/
def FlagClash.message : FlagClash → String
  | asciiAndAll => "ASCII and UNICODE flags are incompatible"

/-- What a repetition is called that prefers more items or fewer. -/
def Preference.repetitionName : Preference → String
  | more => "MAX_REPEAT"
  | fewer => "MIN_REPEAT"
  | most => "POSSESSIVE_REPEAT"

/-- Why a written pattern is refused. -/
inductive PatternError where
  /-- A mistake at a position. -/
  | mistake (m : PatternMistake) (position : Nat)
  /-- A look behind at a text that is too long. -/
  | longLookBehind
  /-- A look behind at a text whose length can vary. -/
  | varyingLookBehind
  /-- A repetition in a template, which cannot have any. -/
  | repeatsInTemplate (preference : Preference)
  /-- A number of repetitions or of a character that is too large. -/
  | overflow (o : Overflow)
  /-- A number of repetitions that cannot be read. -/
  | numeral (e : NumeralError)
  | clash (e : FlagClash)
  deriving DecidableEq, Repr

/-- The wording of the errors of a pattern. In a pattern of several lines the position is also
    given by line and column. -/
def PatternError.message (pattern : String) : PatternError → String
  | mistake m position =>
    let ahead := pattern.toList.take position
    let line := (ahead.filter (· == '\n')).length + 1
    let column := (ahead.reverse.takeWhile (· != '\n')).length + 1
    m.text ++ s!" at position {position}"
      ++ (if pattern.contains '\n' then s!" (line {line}, column {column})" else "")
  | longLookBehind => "looks too much behind"
  | varyingLookBehind => "look-behind requires fixed-width pattern"
  | repeatsInTemplate preference =>
    "internal: unsupported template operator " ++ preference.repetitionName
  | overflow o => o.message
  | numeral e => e.message
  | clash e => e.message

end Hazard
