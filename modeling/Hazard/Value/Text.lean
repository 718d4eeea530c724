import Hazard.Text.Numeral
import Hazard.Value.Basic

set_option autoImplicit false

/-! # The text of values

Messages show values in two ways. `Value.shown` is unambiguous: a text stands in quotes. A name
given by a value is `Value.plain`, where a text stands for itself. A value with a number in it that
has too many digits cannot be shown at all. -/

namespace Hazard

namespace Scalar

/-- A scalar with texts in quotes. -/
def shown : Scalar → String
  | null => "None"
  | bool true => "True"
  | bool false => "False"
  | int n => toString n
  | real x => (Number.real x).text
  | text s => Text.quoted s

/-- A scalar with texts as they are. -/
def plain : Scalar → String
  | text s => s
  | s => s.shown

/-- Whether a scalar can be shown. -/
def isWritable : Scalar → Bool
  | int n => Text.isWritable n
  | _ => true

end Scalar

namespace Value

mutual

/-- A value with all texts in quotes. -/
def shown : Value → String
  | scalar s => s.shown
  | list items => "[" ++ ", ".intercalate (shownItems items) ++ "]"
  | mapping entries => "\x7b" ++ ", ".intercalate (shownEntries entries) ++ "\x7d"

/-- The items of a list. -/
def shownItems : List Value → List String
  | [] => []
  | v :: rest => v.shown :: shownItems rest

/-- The entries of a mapping. -/
def shownEntries : List (Scalar × Value) → List String
  | [] => []
  | (k, v) :: rest => (k.shown ++ ": " ++ v.shown) :: shownEntries rest

end

/-- A value used as a name: a text is the name itself. -/
def plain : Value → String
  | scalar s => s.plain
  | v => v.shown

mutual

/-- Whether a value can be shown. -/
def isWritable : Value → Bool
  | scalar s => s.isWritable
  | list items => areItemsWritable items
  | mapping entries => areEntriesWritable entries

/-- Whether all items of a list can be shown. -/
def areItemsWritable : List Value → Bool
  | [] => true
  | v :: rest => v.isWritable && areItemsWritable rest

/-- Whether all entries of a mapping can be shown. -/
def areEntriesWritable : List (Scalar × Value) → Bool
  | [] => true
  | (k, v) :: rest => k.isWritable && v.isWritable && areEntriesWritable rest

end

/-- The text of a value used as a name. -/
def written (v : Value) : Except NumeralError String :=
  if v.isWritable then return v.plain else throw .unwritable

end Value

end Hazard
