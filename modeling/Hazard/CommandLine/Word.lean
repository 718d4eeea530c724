import Hazard.Text.Digit

set_option autoImplicit false

/-! # The words of a command line

Before a command line is read, each of its words is taken for an option or for an argument. What
begins with a dash is an option, with a few exceptions: a lone dash, a negative number, and a word
with a blank that is no known option. After the word `--` all words are arguments. -/

namespace Hazard.CommandLine

/-- The options. -/
inductive Flag where
  | help
  | config
  | out
  | workers
  | hideSuppressed
  deriving DecidableEq, Repr

/-- The spellings of options. -/
abbrev Spellings := List (String × Flag)

/-- What is written together with an option. -/
inductive Attachment where
  | nothing
  /-- A value after an equals sign. -/
  | value (text : String)
  /-- Further characters after an option of one letter, with or without an equals sign. -/
  | letters (cs : List Char)
  deriving DecidableEq, Repr

/-- A word of a command line. -/
inductive Word where
  | option (flag : Flag) (attached : Attachment)
  | unknownOption
  | argument (text : String)
  /-- The word after which there are no options. -/
  | divider
  deriving DecidableEq, Repr

/-- The text of the divider. -/
def dividerText : String := "--"

/-- Splits a word at its first equals sign. -/
def splitEquals (cs : List Char) : List Char × Attachment :=
  match cs.dropWhile (· != '=') with
  | [] => (cs, .nothing)
  | _ :: value => (cs.takeWhile (· != '='), .value (String.ofList value))

/-- Whether a word is a negative number. A line break at its end is overlooked. -/
def isNegativeNumber (cs : List Char) : Bool :=
  match cs with
  | '-' :: digits =>
    let digits := if digits.getLast? == some '\n' then digits.dropLast else digits
    let front := digits.takeWhile Text.isDecimal
    match digits.dropWhile Text.isDecimal with
    | [] => !front.isEmpty
    | '.' :: back => !back.isEmpty && back.all Text.isDecimal
    | _ => false
  | _ => false

/-- The options that a word with a dash can be short for. After two dashes a word stands for the
    spellings that it begins; after one dash, for a spelling of one letter that begins it, with
    further letters. -/
def abbreviated (spellings : Spellings) (cs : List Char) : List (Flag × Attachment) :=
  match cs with
  | '-' :: '-' :: _ =>
    let (name, attached) := splitEquals cs
    (spellings.filter fun (s, _) => name.isPrefixOf s.toList).map fun (_, f) => (f, attached)
  | _ =>
    spellings.filterMap fun (s, f) =>
      if s.toList == cs.take 2 then some (f, .letters (cs.drop 2))
      else if cs.isPrefixOf s.toList then some (f, .nothing)
      else none

/-- Takes a word that begins with a dash for an option or an argument. There is none if it can be
    short for more than one option. -/
def Word.ofDashed? (spellings : Spellings) (text : String) : Option Word :=
  let cs := text.toList
  match spellings.lookup text with
  | some flag => some (.option flag .nothing)
  | none =>
    if cs.length == 1 then some (.argument text)
    else
      let (name, attached) := splitEquals cs
      match attached, spellings.lookup (String.ofList name) with
      | .value value, some flag =>
        if name.length == 2 && value != "" then some (.option flag (.letters value.toList))
        else some (.option flag attached)
      | _, _ =>
        match abbreviated spellings cs with
        | [(flag, attached)] => some (.option flag attached)
        | [] =>
          if isNegativeNumber cs || cs.contains ' ' then some (.argument text)
          else some .unknownOption
        | _ => none

/-- Takes a word for an option or an argument. -/
def Word.ofText? (spellings : Spellings) (text : String) : Option Word :=
  if text.toList.head? == some '-' then ofDashed? spellings text else some (.argument text)

/-- Takes the words of a command line for options or arguments. -/
def words? (spellings : Spellings) : List String → Option (List Word)
  | [] => some []
  | text :: rest =>
    if text == dividerText then some (.divider :: rest.map .argument)
    else do
      let word ← Word.ofText? spellings text
      return word :: (← words? spellings rest)

end Hazard.CommandLine
