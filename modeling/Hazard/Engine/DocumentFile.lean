import Hazard.Engine.Ingest
import Hazard.Files.Basic

set_option autoImplicit false

/-! # Documents in files

The front-end that reads a unit's description from a file. A file that is absent, unreadable or
malformed, or that does not hold a description, is a failure; whatever else comes of opening and
loading it breaks the front-end. -/

namespace Hazard

namespace Ingestion

/-- A file that could not be ingested. -/
def failed (path reason : String) (location : Option Location := none) : Ingestion :=
  done (.failure { unit := path, reason, location })

/-- Ingests a document from the file at `path`. -/
def ofFileDocument (path : String) (document : Value) : Ingestion where
  result :=
    match Document.read document path with
    | .ok m => .ok (.model m)
    | .error (.shape e) => .ok (.failure { unit := path, reason := e.message })
    | .error (.numeral e) => .error (.ofNumeral e)
  notices := Document.notices document

/-- Ingests the file at `path`. -/
def ofFile (files : Files) (loader : Loader) (path : String) : Ingestion :=
  match files path with
  | .error .missing => failed path "IR document not found"
  | .error (.refused reason) => failed path s!"could not read IR document: {reason}"
  | .error (.fault f) => broken f
  | .ok bytes =>
    match loader bytes with
    | .error (.malformed reason place) =>
      failed path s!"malformed IR document: {reason}"
        (place.map fun (line, column) => ⟨path, line + 1, column + 1⟩)
    | .error (.fault f) => broken f
    | .ok document => ofFileDocument path document

end Ingestion

end Hazard
