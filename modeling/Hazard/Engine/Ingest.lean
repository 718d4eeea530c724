import Hazard.Document.Reader
import Hazard.Engine.Notice

set_option autoImplicit false

/-! # Ingestion

A front-end turns a source into the facts about a unit, or explains why it cannot. A front-end
that breaks down is no more than one that could not: the run goes on with the other sources. -/

namespace Hazard

/-- A source that yields no facts. -/
structure IngestFailure where
  unit : String
  reason : String
  location : Option Location := none
  deriving DecidableEq, Repr

/-- What became of a source. -/
inductive Ingested where
  | model (m : Model)
  | failure (f : IngestFailure)
  deriving Repr

/-- The name of the unit. -/
def Ingested.unit : Ingested → String
  | model m => m.unit
  | failure f => f.unit

/-- What a front-end does with a source: it comes to a result or breaks down, and has notices
    either way. -/
structure Ingestion where
  result : Except Fault Ingested
  notices : List Notice := []
  deriving Repr

namespace Ingestion

/-- The front-end is done without notices. -/
def done (i : Ingested) : Ingestion := { result := .ok i }

/-- The front-end breaks down without notices. -/
def broken (fault : Fault) : Ingestion := { result := .error fault }

/-- The result, with a breakdown taken for a failure. -/
def settle (source : String) (i : Ingestion) : Ingested :=
  match i.result with
  | .ok ingested => ingested
  | .error fault => .failure { unit := source, reason := s!"{fault.kind}: {fault.message}" }

/-- The notices, with one about a breakdown. -/
def allNotices (source : String) (i : Ingestion) : List Notice :=
  match i.result with
  | .ok _ => i.notices
  | .error fault => i.notices ++ [.frontEndFailed source fault]

end Ingestion

/-- A failure to read a document. -/
def Fault.ofDocument : DocumentError → Fault
  | .shape e => withMessage "IRDocumentError" e.message
  | .numeral e => ofNumeral e

/-- The notices about a document. -/
def Document.notices : Value → List Notice
  | .mapping entries =>
    match Document.unknownKeys entries with
    | .ok names => names.map Notice.unknownKey
    | .error _ => []
  | _ => []

/-- The front-end that is given the document itself. -/
def Ingestion.ofDocument (document : Value) (fallback : String) : Ingestion where
  result :=
    match Document.read document fallback with
    | .ok m => .ok (.model m)
    | .error e => .error (.ofDocument e)
  notices := Document.notices document

end Hazard
