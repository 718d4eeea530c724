import Hazard.Document.Error
import Hazard.Document.Place
import Hazard.Worded
import Hazard.Waiver

set_option autoImplicit false

/-! # The fields of a document

One reader for each kind of field. A field that is absent gets its default; what a null stands for
depends on the kind of the field. -/

namespace Hazard

/-- Reading a part of a document. -/
abbrev Reading (α : Type) := Except DocumentError α

namespace Reading

/-- Refuses a document, if what it shows can be shown. -/
def refuse {α : Type} (e : ShapeError) : Reading α :=
  .error (if e.shows.all Value.isWritable then .shape e else .numeral .unwritable)

/-- The text of a value used as a name. -/
def name (value : Value) : Reading String := value.written.mapError DocumentError.numeral

end Reading

namespace Field

open Reading (refuse name)

/-- The mappings of a list, counted from `index`. -/
def mappings (key : String) : (index : Nat) → List Value → Reading (List Entries)
  | _, [] => return []
  | index, .mapping entries :: rest => return entries :: (← mappings key (index + 1) rest)
  | index, _ :: _ => refuse (.itemNotMapping key index)

/-- A list of entities; null stands for none. -/
def items (raw : Entries) (key : String) : Reading (List Entries) :=
  match raw.get? key with
  | none => return []
  | some .null => return []
  | some (.list values) => mappings key 0 values
  | some _ => refuse (.notList key)

/-- A name; a null is refused like a missing name. -/
def text (raw : Entries) (key : String) (default : Option String := none) : Reading String :=
  match raw.get? key with
  | some .null => refuse (.missing key)
  | some value => name value
  | none =>
    match default with
    | some s => return s
    | none => refuse (.missing key)

/-- A name with a default; a null is a name like any other. -/
def textOr (raw : Entries) (key default : String) : Reading String :=
  match raw.get? key with
  | none => return default
  | some value => name value

/-- A name that may be absent or null. -/
def optionalText (raw : Entries) (key : String) : Reading (Option String) :=
  match raw.get? key with
  | none => return none
  | some .null => return none
  | some value => return some (← name value)

/-- A truth value. -/
def flag (raw : Entries) (key : String) (default : Bool := false) : Reading Bool :=
  match raw.get? key with
  | none => return default
  | some (.bool b) => return b
  | some value => refuse (.notFlag key value)

/-- An integer. -/
def integer (raw : Entries) (key : String) : Reading Int :=
  match raw.get? key with
  | none => return 0
  | some (.int n) => return n
  | some value => refuse (.notInteger key value)

/-- An integer that may be absent or null. -/
def optionalInteger (raw : Entries) (key : String) : Reading (Option Int) :=
  match raw.get? key with
  | none => return none
  | some .null => return none
  | some (.int n) => return some n
  | some value => refuse (.notInteger key value)

/-- The items of a list field; any value that says nothing stands for the empty list. -/
def listed (raw : Entries) (key : String) (e : ShapeError) : Reading (List Value) :=
  match raw.get? key with
  | none => return []
  | some value =>
    if value.isEmpty then return []
    else
      match value with
      | .list values => return values
      | _ => refuse e

/-- A list of integers. -/
def integers (raw : Entries) (key : String) : Reading (List Int) := do
  (← listed raw key (.notIntegerList key)).mapM fun
    | .int n => return n
    | value => refuse (.notIntegerItem key value)

/-- A list of names. -/
def names (raw : Entries) (key : String) : Reading (List String) := do
  (← listed raw key (.notNameList key)).mapM name

/-- A member of an enumeration, given by its word. -/
def member {α : Type} [Worded α] (key : String) (value : Value) : Reading α :=
  match value with
  | .text s =>
    match Worded.ofWord? s with
    | some a => return a
    | none => refuse (.notChoice key (Worded.words α) value)
  | _ => refuse (.notChoice key (Worded.words α) value)

/-- A member of an enumeration with a default. -/
def choice {α : Type} [Worded α] (raw : Entries) (key : String) (default : α) : Reading α :=
  match raw.get? key with
  | none => return default
  | some value => member key value

/-- A member of an enumeration that may be absent or null. -/
def optionalChoice {α : Type} [Worded α] (raw : Entries) (key : String) : Reading (Option α) :=
  match raw.get? key with
  | none => return none
  | some .null => return none
  | some value => return some (← member key value)

/-- A location: a line of the unit, a written location, or a mapping with file, line and
    column. -/
def location (unit : String) (raw : Entries) : Reading (Option Location) :=
  match raw.get? "location" with
  | none => return none
  | some .null => return none
  | some (.bool b) => refuse (.truthLocation b)
  | some (.int line) => return some ⟨unit, line, 0⟩
  | some (.mapping place) => do
    let file ← textOr place "file" unit
    let line ← integer place "line"
    let column ← integer place "column"
    return some ⟨file, line, column⟩
  | some (.text s) =>
    match Location.ofText unit s with
    | .error e => .error (.numeral e)
    | .ok (some loc) => return some loc
    | .ok none => refuse (.badLocation (.text s))
  | some value => refuse (.badLocation value)

/-- Whether a field is absent or null. -/
def isVoid (raw : Entries) (key : String) : Bool :=
  match raw.get? key with
  | none => true
  | some .null => true
  | some _ => false

/-- A waiver. It can name its rule under two keys, of which the first decides even when it
    is null. -/
def waiver (unit : String) (raw : Entries) : Reading Waiver := do
  let ruleKey := if (raw.get? "rule").isSome then "rule" else "rule_id"
  if isVoid raw ruleKey && isVoid raw "marker" then refuse .unmarkedWaiver
  let rule ← optionalText raw ruleKey
  let marker ← optionalText raw "marker"
  let justification ← textOr raw "justification" ""
  let location ← location unit raw
  return { rule, marker, justification, location }

/-- The waivers of an entity. -/
def waivers (unit : String) (raw : Entries) : Reading (List Waiver) := do
  (← items raw "annotations").mapM (waiver unit)

end Field

end Hazard
