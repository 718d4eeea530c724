import Hazard.Config.Basic
import Hazard.Files.Basic

set_option autoImplicit false

/-! # Configurations in files

A run with a configuration that it cannot honour must not start. What is wrong with the file or
its content is refused like any other mistake; numbers out of range are faults, and so is whatever
else comes of opening and loading the file. -/

namespace Hazard

/-- Why a configuration file cannot be used. -/
inductive ConfigFileError where
  | refused (e : ConfigError)
  | fault (f : Fault)
  deriving Repr

/-- A failure of a configuration as one of its file. -/
def ConfigFileError.ofFailure : ConfigFailure → ConfigFileError
  | .refused e => refused e
  | .overflow o => fault (.ofOverflow o)
  | .numeral e => fault (.ofNumeral e)
  | .clash e => fault (.ofFlagClash e)

namespace Config

/-- Reads the value in the configuration file at `path`. -/
def loadValue (files : Files) (loader : Loader) (path : String) : Except ConfigFileError Value :=
  match files path with
  | .error .missing => throw (.refused (.fileMissing path))
  | .error (.refused reason) => throw (.refused (.fileUnreadable path reason))
  | .error (.fault f) => throw (.fault f)
  | .ok bytes =>
    match loader bytes with
    | .ok value => return value
    | .error (.malformed reason _) => throw (.refused (.fileMalformed path reason))
    | .error (.fault f) => throw (.fault f)

/-- Reads the configuration file at `path`. -/
def load [CharacterNames] (files : Files) (loader : Loader) (path : String) :
    Except ConfigFileError Config := do
  let value ← loadValue files loader path
  (ofValue value).mapError ConfigFileError.ofFailure

end Config

end Hazard
