import Hazard.Text.Blank
import Hazard.Text.Case
import Hazard.Text.Digit
import Hazard.Text.Letter
import Hazard.Text.Surrogate

set_option autoImplicit false

/-! # Patterns

A pattern describes texts. It is searched for: `Pattern.search` asks whether some part of a text is
of the form the pattern describes. Alternatives are tried in order and a repetition prefers more
items or fewer as it says; the order shows through references to what a group has matched and
through groups that are not entered a second time. -/

namespace Hazard

/-- A kind of character. -/
inductive CharKind where
  | digit
  | blank
  | word
  deriving DecidableEq, Repr

/-- Whether a character is of a kind. With `ascii` only ASCII characters are. -/
def CharKind.holds (k : CharKind) (ascii : Bool) (c : Char) : Bool :=
  (!ascii || c.toNat < 128) &&
    match k with
    | digit => Text.isDecimal c
    | blank => if ascii then c == ' ' || (9 ≤ c.toNat && c.toNat ≤ 13) else Text.isBlank c
    | word => Text.isWordChar c || c == '_'

/-- How the case of letters is taken. -/
inductive Casing where
  | kept
  /-- Ignored in ASCII letters only. -/
  | asciiIgnored
  | ignored
  deriving DecidableEq, Repr

/-- A part of a set of characters. -/
inductive SetItem where
  | char (c : Char)
  | range (low high : Char)
  | kind (k : CharKind) (negated : Bool) (ascii : Bool)
  deriving DecidableEq, Repr

/-- A condition on a position that takes no characters. -/
inductive Anchor where
  | textStart
  | lineStart
  /-- The very end. -/
  | textEnd
  /-- The end, or before a line break at the end. -/
  | lastLineEnd
  | lineEnd
  /-- Between a word and what is no word, or anywhere else if negated. -/
  | boundary (negated : Bool) (ascii : Bool)
  deriving DecidableEq, Repr

/-- What a repetition prefers. -/
inductive Preference where
  | more
  | fewer
  /-- As many items as possible, without giving any of them back. -/
  | most
  deriving DecidableEq, Repr

/-- A pattern. -/
inductive Pattern where
  | empty
  | char (c : Char) (casing : Casing)
  /-- Any character, or any but a line break. -/
  | any (lineBreaks : Bool)
  | set (negated : Bool) (items : List SetItem) (casing : Casing)
  | anchor (a : Anchor)
  | seq (first rest : Pattern)
  | either (first second : Pattern)
  | group (number : Nat) (body : Pattern)
  /-- What a group has matched, once more. -/
  | again (number : Nat) (casing : Casing)
  /-- One pattern if a group has matched, another one if it has not. -/
  | given (number : Nat) (yes no : Pattern)
  /-- The text ahead is, or is not, of a form. -/
  | ahead (positive : Bool) (body : Pattern)
  /-- The `width` characters before are, or are not, of a form. -/
  | behind (positive : Bool) (width : Nat) (body : Pattern)
  | repeats (preference : Preference) (least : Nat) (most : Option Nat) (body : Pattern)
  /-- The first way in which the body matches, and no other. -/
  | once (body : Pattern)
  deriving DecidableEq, Repr

namespace Pattern

/-- The fewest and the most characters that a pattern takes; `none` when there is no most. What a
    group has matched can be of any length up to that of the group, given by `groupWidths`. -/
def widths (groupWidths : Nat → Nat × Option Nat) : Pattern → Nat × Option Nat
  | empty => (0, some 0)
  | char .. => (1, some 1)
  | any _ => (1, some 1)
  | set .. => (1, some 1)
  | anchor _ => (0, some 0)
  | seq a b =>
    let (low, high) := widths groupWidths a
    let (low', high') := widths groupWidths b
    (low + low', do return (← high) + (← high'))
  | either a b =>
    let (low, high) := widths groupWidths a
    let (low', high') := widths groupWidths b
    (min low low', do return max (← high) (← high'))
  | group _ body => widths groupWidths body
  | again n _ => groupWidths n
  | given _ a b =>
    let (low, high) := widths groupWidths a
    let (low', high') := widths groupWidths b
    (min low low', do return max (← high) (← high'))
  | ahead .. => (0, some 0)
  | behind .. => (0, some 0)
  | repeats _ least most body =>
    let (low, high) := widths groupWidths body
    (low * least,
      if high = some 0 || most = some 0 then some 0 else do return (← high) * (← most))
  | once body => widths groupWidths body

end Pattern

end Hazard
