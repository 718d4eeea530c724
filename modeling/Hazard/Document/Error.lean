import Hazard.Value.Text

set_option autoImplicit false

/-! # What can be wrong with a document -/

namespace Hazard

/-- A way in which a document does not have the shape of a unit's description. -/
inductive ShapeError where
  /-- The document as a whole is no mapping. -/
  | notMapping
  /-- A field that holds entities is no list. -/
  | notList (key : String)
  /-- An item of a list of entities is no mapping. -/
  | itemNotMapping (key : String) (index : Nat)
  /-- A field without a default is absent or null. -/
  | missing (key : String)
  | notFlag (key : String) (value : Value)
  | notInteger (key : String) (value : Value)
  | notIntegerList (key : String)
  | notIntegerItem (key : String) (value : Value)
  | notNameList (key : String)
  | notChoice (key : String) (allowed : List String) (value : Value)
  | capturesNotMapping
  | badCapture (binding : Scalar) (mode : Value)
  /-- A truth value where a location belongs. -/
  | truthLocation (value : Bool)
  | badLocation (value : Value)
  /-- A waiver that names neither a rule nor a marker. -/
  | unmarkedWaiver
  deriving Repr

/-- Why a document cannot be read. A location may have the right shape and still give a line that
    is no number, and a number used as a name can have too many digits. -/
inductive DocumentError where
  | shape (e : ShapeError)
  | numeral (e : NumeralError)
  deriving Repr

/-- The wording of the errors of shape. -/
def ShapeError.message : ShapeError → String
  | notMapping => "IR document must be a mapping"
  | notList key => s!"'{key}' must be a list"
  | itemNotMapping key index => s!"'{key}[{index}]' must be a mapping"
  | missing key => s!"missing required field '{key}'"
  | notFlag key value => s!"field '{key}' must be true or false, got {value.shown}"
  | notInteger key value => s!"field '{key}' must be an integer, got {value.shown}"
  | notIntegerList key => s!"field '{key}' must be a list of integers"
  | notIntegerItem key value => s!"field '{key}' must be a list of integers, got {value.shown}"
  | notNameList key => s!"field '{key}' must be a list of names"
  | notChoice key allowed value =>
    s!"field '{key}' must be one of " ++ ", ".intercalate allowed ++ s!", got {value.shown}"
  | capturesNotMapping => "field 'captures' must map binding names to a capture mode"
  | badCapture binding mode =>
    s!"capture of '{binding.plain}' must be by_reference or by_value, got {mode.shown}"
  | truthLocation value => "invalid location " ++ (Value.bool value).shown
  | badLocation value => s!"invalid location {value.shown}; expected 'file:line[:column]'"
  | unmarkedWaiver => "annotation needs a 'rule' or a 'marker'"

/-- The values that an error of shape shows. -/
def ShapeError.shows : ShapeError → List Value
  | notFlag _ value => [value]
  | notInteger _ value => [value]
  | notIntegerItem _ value => [value]
  | notChoice _ _ value => [value]
  | badCapture binding mode => [.scalar binding, mode]
  | badLocation value => [value]
  | _ => []

/-- The wording of the errors. -/
def DocumentError.message : DocumentError → String
  | shape e => e.message
  | numeral e => e.message

end Hazard
