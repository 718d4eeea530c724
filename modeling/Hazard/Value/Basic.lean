import Hazard.Number

set_option autoImplicit false

/-! # Document values

What a document, a configuration file or a request can hold: scalars, lists and mappings. A
mapping keeps its entries in the order in which they were written, and its keys can be any
scalars. -/

namespace Hazard

/-- A value without parts. -/
inductive Scalar where
  | null
  | bool (b : Bool)
  | int (n : Int)
  | real (x : Float)
  | text (s : String)
  deriving Inhabited, Repr

/-- A document value. -/
inductive Value where
  | scalar (s : Scalar)
  | list (items : List Value)
  | mapping (entries : List (Scalar × Value))
  deriving Inhabited, Repr

namespace Scalar

/-- The number a scalar counts as in comparisons: a truth value is one or zero. -/
def number? : Scalar → Option Number
  | bool b => some (.int (if b then 1 else 0))
  | int n => some (.int n)
  | real x => some (.real x)
  | _ => none

/-- Whether two scalars are the same key of a mapping: numbers by their value, texts by their
    characters. What is no number is a key of its own. -/
def sameKey : Scalar → Scalar → Bool
  | null, null => true
  | text s, text t => s == t
  | a, b =>
    match a.number?, b.number? with
    | some m, some n => m.exact.eq n.exact || m.exact == .notANumber && n.exact == .notANumber
    | _, _ => false

end Scalar

namespace Value

/-- The null value. -/
@[match_pattern] abbrev null : Value := scalar .null

/-- A truth value. -/
@[match_pattern] abbrev bool (b : Bool) : Value := scalar (.bool b)

/-- An integer. -/
@[match_pattern] abbrev int (n : Int) : Value := scalar (.int n)

/-- A double. -/
@[match_pattern] abbrev real (x : Float) : Value := scalar (.real x)

/-- A text. -/
@[match_pattern] abbrev text (s : String) : Value := scalar (.text s)

/-- The number a value counts as in comparisons. -/
def number? : Value → Option Number
  | scalar s => s.number?
  | _ => none

/-- What messages call the kind of a value. -/
def kindName : Value → String
  | null => "NoneType"
  | bool _ => "bool"
  | int _ => "int"
  | real _ => "float"
  | text _ => "str"
  | list _ => "list"
  | mapping _ => "dict"

/-- A number. -/
def ofNumber : Number → Value
  | .int n => int n
  | .real x => real x

/-- A list of texts. -/
def texts (ss : List String) : Value := list (ss.map text)

/-- A mapping whose keys are texts. -/
def record (fields : List (String × Value)) : Value :=
  mapping (fields.map fun (k, v) => (.text k, v))

/-- Whether a value says nothing: null, false, zero, an empty text, list or mapping. -/
def isEmpty : Value → Bool
  | null => true
  | bool b => !b
  | int n => n == 0
  | real x => x == 0.0
  | text s => s == ""
  | list items => items.isEmpty
  | mapping entries => entries.isEmpty

end Value

/-- The entries of a mapping. -/
abbrev Entries := List (Scalar × Value)

namespace Entries

/-- The value under a key that is a text. -/
def get? (entries : Entries) (key : String) : Option Value :=
  match entries with
  | [] => none
  | (.text k, v) :: rest => if k == key then some v else Entries.get? rest key
  | _ :: rest => Entries.get? rest key

/-- Adds an entry; an entry with the same key keeps its place and gets the new value. -/
def put (entries : Entries) (key : Scalar) (value : Value) : Entries :=
  match entries with
  | [] => [(key, value)]
  | (k, v) :: rest =>
    if k.sameKey key then (k, value) :: rest else (k, v) :: Entries.put rest key value

end Entries

end Hazard
