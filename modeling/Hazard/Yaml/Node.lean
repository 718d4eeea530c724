import Hazard.Yaml.Token

set_option autoImplicit false

/-! # Nodes

The tokens of a text form a tree of scalars, sequences and mappings. A part that is left out is an
empty plain scalar. -/

namespace Hazard.Yaml

/-- A part of a document, with the place where it begins. -/
inductive Node where
  | scalar (text : String) (isPlain : Bool) (start : Mark)
  | sequence (items : List Node) (start : Mark)
  | mapping (entries : List (Node × Node)) (start : Mark)
  deriving Repr

namespace Node

/-- Where a node begins. -/
def start : Node → Mark
  | scalar _ _ m => m
  | sequence _ m => m
  | mapping _ m => m

/-- A part that is left out. -/
def absent (m : Mark) : Node := scalar "" true m

end Node

/-- Reading from a stream of tokens. -/
abbrev Parsing (α : Type) := StateT TokenStream (Except LoadError) α

namespace Parsing

/-- The next token, which stays where it is. -/
def peek : Parsing Token := do
  let s ← (← get).settled
  set s
  return s.next

/-- Takes the next token. -/
def take : Parsing Token := do
  let t ← peek
  modify (·.drop)
  return t

/-- Whether the next token is of one of the given kinds. -/
def sees (kinds : List TokenKind) : Parsing Bool := return kinds.contains (← peek).kind

/-- Fails at the next token. -/
def fail {α : Type} (flaw : Flaw) : Parsing α := do
  throw (.found (← peek).start flaw)

/-- The part that is left out before a token. -/
def absent : Parsing Node := return .absent (← peek).start

mutual

/-- A node. `inBlock` allows block collections; `compact` allows a sequence without an indentation
    of its own. -/
def node (inBlock compact : Bool) : (fuel : Nat) → Parsing Node
  | 0 => fail .missingContent
  | fuel + 1 => do
    let t ← peek
    match t.kind with
    | .blockEntry =>
      if compact then return .sequence (← compactItems fuel) t.start else fail .missingContent
    | .scalar text isPlain =>
      let _ ← take
      return .scalar text isPlain t.start
    | .flowSequenceStart =>
      let _ ← take
      return .sequence (← flowItems true fuel) t.start
    | .flowMappingStart =>
      let _ ← take
      return .mapping (← flowEntries true fuel) t.start
    | .blockSequenceStart =>
      if inBlock then
        let _ ← take
        return .sequence (← blockItems fuel) t.start
      else fail .missingContent
    | .blockMappingStart =>
      if inBlock then
        let _ ← take
        return .mapping (← blockEntries fuel) t.start
      else fail .missingContent
    | _ => fail .missingContent

/-- A node, unless one of the given tokens shows that it is left out. -/
def nodeUnless (kinds : List TokenKind) (inBlock compact : Bool) : (fuel : Nat) → Parsing Node
  | 0 => fail .missingContent
  | fuel + 1 => do
    if ← sees kinds then absent else node inBlock compact fuel

/-- The items of a block sequence and its end. -/
def blockItems : (fuel : Nat) → Parsing (List Node)
  | 0 => fail .blockNotEnded
  | fuel + 1 => do
    match (← peek).kind with
    | .blockEntry =>
      let _ ← take
      let item ← nodeUnless [.blockEntry, .blockEnd] true false fuel
      return item :: (← blockItems fuel)
    | .blockEnd =>
      let _ ← take
      return []
    | _ => fail .blockNotEnded

/-- The items of a sequence that has no indentation of its own, and so no end either. -/
def compactItems : (fuel : Nat) → Parsing (List Node)
  | 0 => fail .blockNotEnded
  | fuel + 1 => do
    if ← sees [.blockEntry] then
      let _ ← take
      let item ← nodeUnless [.blockEntry, .key, .value, .blockEnd] true false fuel
      return item :: (← compactItems fuel)
    else return []

/-- The entries of a block mapping and its end. -/
def blockEntries : (fuel : Nat) → Parsing (List (Node × Node))
  | 0 => fail .blockNotEnded
  | fuel + 1 => do
    match (← peek).kind with
    | .key =>
      let _ ← take
      let key ← nodeUnless [.key, .value, .blockEnd] true true fuel
      let value ← blockValue fuel
      return (key, value) :: (← blockEntries fuel)
    | .blockEnd =>
      let _ ← take
      return []
    | _ => fail .blockNotEnded

/-- The value of an entry of a block mapping. -/
def blockValue : (fuel : Nat) → Parsing Node
  | 0 => fail .blockNotEnded
  | fuel + 1 => do
    if ← sees [.value] then
      let _ ← take
      nodeUnless [.key, .value, .blockEnd] true true fuel
    else absent

/-- The items of a flow sequence and its end. An item can be a single entry of a mapping. -/
def flowItems (isFirst : Bool) : (fuel : Nat) → Parsing (List Node)
  | 0 => fail .flowNotEnded
  | fuel + 1 => do
    if ← sees [.flowSequenceEnd] then
      let _ ← take
      return []
    else
      if !isFirst then
        if ← sees [.flowEntry] then
          let _ ← take
        else fail .flowNotEnded
      let t ← peek
      match t.kind with
      | .key =>
        let _ ← take
        let key ← nodeUnless [.value, .flowEntry, .flowSequenceEnd] false false fuel
        let value ← flowValue .flowSequenceEnd fuel
        return .mapping [(key, value)] t.start :: (← flowItems false fuel)
      | .flowSequenceEnd =>
        let _ ← take
        return []
      | _ =>
        let item ← node false false fuel
        return item :: (← flowItems false fuel)

/-- The entries of a flow mapping and its end. A key can go without a value. -/
def flowEntries (isFirst : Bool) : (fuel : Nat) → Parsing (List (Node × Node))
  | 0 => fail .flowNotEnded
  | fuel + 1 => do
    if ← sees [.flowMappingEnd] then
      let _ ← take
      return []
    else
      if !isFirst then
        if ← sees [.flowEntry] then
          let _ ← take
        else fail .flowNotEnded
      match (← peek).kind with
      | .key =>
        let _ ← take
        let key ← nodeUnless [.value, .flowEntry, .flowMappingEnd] false false fuel
        let value ← flowValue .flowMappingEnd fuel
        return (key, value) :: (← flowEntries false fuel)
      | .flowMappingEnd =>
        let _ ← take
        return []
      | _ =>
        let key ← node false false fuel
        let value ← absent
        return (key, value) :: (← flowEntries false fuel)

/-- The value of an entry in a flow collection that has the given end. -/
def flowValue (ending : TokenKind) : (fuel : Nat) → Parsing Node
  | 0 => fail .flowNotEnded
  | fuel + 1 => do
    if ← sees [.value] then
      let _ ← take
      nodeUnless [.flowEntry, ending] false false fuel
    else absent

end

/-- Goes over marks that end a document. The bound is on their number. -/
def skipDocumentEnds : (bound : Nat) → Parsing Unit
  | 0 => return
  | bound + 1 => do
    if ← sees [.documentEnd] then
      let _ ← take
      skipDocumentEnds bound

/-- The content of a document that begins with a mark. -/
def content (fuel : Nat) : Parsing Node :=
  nodeUnless [.documentStart, .documentEnd, .streamEnd] true false fuel

/-- The single document of a stream; an empty stream has none. -/
def document (fuel : Nat) : Parsing (Option Node) := do
  let _ ← take
  match (← peek).kind with
  | .streamEnd => return none
  | kind =>
    if kind == .documentStart then
      let _ ← take
    let root ← if kind == .documentStart then content fuel else node true false fuel
    skipDocumentEnds fuel
    match (← peek).kind with
    | .streamEnd => return some root
    | .documentStart => fail .secondDocument
    | _ => fail .missingDocumentStart

end Parsing

namespace Node

/-- Enough fuel for a text: a token takes few steps, and a character begins few tokens. -/
def fuelFor (source : Source) : Nat := 16 * source.text.length + 64

/-- Reads the document in a source. -/
def ofSource? (source : Source) : Except LoadError (Option Node) := do
  let (root, _) ← (Parsing.document (fuelFor source)).run (.ofSource source)
  return root

end Node

end Hazard.Yaml
