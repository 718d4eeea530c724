import Hazard.Pattern.Error
import Hazard.Text.Numeral

set_option autoImplicit false

/-! # Faults

A fault is a failure that stops the reading of a unit, or a rule, and that is reported together
with the results of the rest. -/

namespace Hazard

/-- The kind of a failure, its message, and how the two are written in the log. -/
structure Fault where
  kind : String
  message : String
  display : String
  deriving DecidableEq, Repr

namespace Fault

/-- A failure with a message. -/
def withMessage (kind message : String) : Fault :=
  ⟨kind, message, kind ++ "(" ++ Text.quoted message ++ ")"⟩

/-- A failure without a message. -/
def bare (kind : String) : Fault := ⟨kind, "", kind ++ "()"⟩

/-- Something that is looked up by name, such as a threshold that a rule needs, is not there. -/
def missingKey (name : String) : Fault :=
  ⟨"KeyError", Text.quoted name, "KeyError(" ++ Text.quoted name ++ ")"⟩

/-- Something is not of the kind that is needed. -/
def wrongKind (message : String) : Fault := withMessage "TypeError" message

/-- Values of two kinds cannot be compared. -/
def notComparable (operator left right : String) : Fault :=
  wrongKind s!"'{operator}' not supported between instances of '{left}' and '{right}'"

/-- A value of a kind that has no items is used as a list. -/
def notIterable (kind : String) : Fault := wrongKind s!"'{kind}' object is not iterable"

/-- A value of a kind that cannot be a key is used as one. -/
def notKey (kind : String) : Fault := wrongKind s!"unhashable type: '{kind}'"

/-- Something that is no text is used as a pattern. -/
def notPattern : Fault := wrongKind "first argument must be string or compiled pattern"

/-- Something that is no whole number is used to count items. -/
def notIndex : Fault :=
  wrongKind "slice indices must be integers or None or have an __index__ method"

/-- A number cannot be read or written. -/
def ofNumeral (e : NumeralError) : Fault := withMessage "ValueError" e.message

/-- Something is too large. -/
def ofOverflow (o : Overflow) : Fault := withMessage "OverflowError" o.message

/-- The flags of a pattern exclude each other. -/
def ofFlagClash (e : FlagClash) : Fault := withMessage "ValueError" e.message

/-- A pattern cannot be read. -/
def badPattern (pattern : String) : PatternError → Fault
  | .overflow o => ofOverflow o
  | .numeral e => ofNumeral e
  | .clash e => ofFlagClash e
  | e => withMessage "error" (e.message pattern)

end Fault

end Hazard
