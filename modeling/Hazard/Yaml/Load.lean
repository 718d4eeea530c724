import Hazard.Files.Basic
import Hazard.Yaml.Node
import Hazard.Yaml.Plain

set_option autoImplicit false

/-! # The value of a text

A key that occurs again gets the new value and keeps its place. Lists and mappings are filled level
by level: all parts of one level, then the lists and mappings among them. So of several parts
without a value, the one on the highest level is reported. -/

namespace Hazard

namespace Yaml

namespace Node

/-- The value of a scalar that starts at a place. Only plain ones can be anything but a text, and
    one of them is reserved for keys. -/
def scalarValue (text : String) (isPlain : Bool) (start : Mark) : Except LoadError Scalar :=
  if isPlain then
    if text == Plain.keyOnly then .error (.found start .reservedForKeys)
    else (Plain.scalar text).mapError LoadError.breakdown
  else return .text text

/-- The value of a key. Lists and mappings cannot be keys. -/
def keyValue : Node → Except LoadError Scalar
  | scalar text isPlain _ =>
    if isPlain then (Plain.scalar text).mapError LoadError.breakdown else return .text text
  | n => .error (.found n.start .collectionAsKey)

mutual

/-- The value of a node. -/
def value : Node → Except LoadError Value
  | scalar text isPlain start => return .scalar (← scalarValue text isPlain start)
  | sequence items _ => return .list (← itemValues items)
  | mapping entries _ => return .mapping (← entryValues [] entries)

/-- The values of the items of a sequence. -/
def itemValues : List Node → Except LoadError (List Value)
  | [] => return []
  | n :: rest => return (← n.value) :: (← itemValues rest)

/-- Adds the entries of a mapping to those before them. -/
def entryValues (before : Entries) : List (Node × Node) → Except LoadError Entries
  | [] => return before
  | (k, v) :: rest => do
    let key ← k.keyValue
    let value ← v.value
    entryValues (before.put key value) rest

end

/-! ## Levels -/

mutual

/-- How many levels a node has. -/
def height : Node → Nat
  | scalar .. => 1
  | sequence items _ => itemsHeight items + 1
  | mapping entries _ => entriesHeight entries + 1

/-- How many levels the highest of the items has. -/
def itemsHeight : List Node → Nat
  | [] => 0
  | n :: rest => max n.height (itemsHeight rest)

/-- How many levels the highest of the values has. -/
def entriesHeight : List (Node × Node) → Nat
  | [] => 0
  | (_, v) :: rest => max v.height (entriesHeight rest)

end

/-- What has gone wrong, if anything has. -/
def failure? {α : Type} : Except LoadError α → Option LoadError
  | .ok _ => none
  | .error e => some e

/-- Why a scalar has no value. -/
def flaw? : Node → Option LoadError
  | scalar text isPlain start => failure? (scalarValue text isPlain start)
  | _ => none

/-- Why a list or a mapping cannot be filled, whatever is inside its items and values. -/
def fillingFlaw? : Node → Option LoadError
  | scalar .. => none
  | sequence items _ => items.findSome? flaw?
  | mapping entries _ => entries.findSome? fun (k, v) => (failure? k.keyValue).or v.flaw?

/-- The nodes one level below. -/
def parts : Node → List Node
  | scalar .. => []
  | sequence items _ => items
  | mapping entries _ => entries.map (·.2)

/-- The first flaw of a level, or of those below it. -/
def firstFlaw? : (levels : Nat) → List Node → Option LoadError
  | 0, _ => none
  | levels + 1, nodes =>
    (nodes.findSome? fillingFlaw?).or (firstFlaw? levels (nodes.flatMap parts))

/-- The value of a document. -/
def load (root : Node) : Except LoadError Value :=
  match root.value with
  | .ok v => return v
  | .error e => throw ((firstFlaw? root.height [root]).getD e)

end Node

end Yaml

/-- The value of the document in a source; null if there is none. -/
def Value.ofYaml (source : Yaml.Source) : Except LoadError Value := do
  match ← Yaml.Node.ofSource? source with
  | none => return .null
  | some root => root.load

/-! ## The loader -/

/-- The reading of a text breaks down. -/
def Fault.ofBreakdown : Breakdown → Fault
  | .undecodable e => ⟨"UnicodeDecodeError", e.message, e.display⟩
  | .numeral e => ofNumeral e
  | .overflow o => ofOverflow o
  | .noCharacter code =>
    if code < Overflow.codeLimit then withMessage "ValueError" "chr() arg not in range(0x110000)"
    else ofOverflow .codePoint

/-- What an error is to those who want the value. -/
def LoadError.toLoaderError : LoadError → LoaderError
  | malformed e => .malformed e.message (e.place.map fun m => (m.line, m.column))
  | breakdown b => .fault (.ofBreakdown b)

/-- The loader for the texts that are described here: without anchors, tags, directives, block
    scalars and dates. What it makes of other texts is its own. -/
def Yaml.loader : Loader := fun bytes =>
  (Value.ofYaml (.ofBytes bytes)).mapError LoadError.toLoaderError

end Hazard
