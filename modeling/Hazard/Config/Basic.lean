import Hazard.Config.Catalog

set_option autoImplicit false

/-! # Configurations

A configuration has a section for the rules and one for the engine. -/

namespace Hazard

open Configuring (refuse)

/-- Settings of the engine. The time limit of a unit is checked between rules: a unit that has
    exceeded it skips its remaining rules. -/
structure EngineSettings where
  workers : Int := 4
  /-- The time limit of a unit in seconds. -/
  unitTimeout : Option Float := none
  /-- Whether diagnostics about the run leave the outcome alone. -/
  partialResults : Bool := false
  deriving Repr

namespace EngineSettings

/-- What can be set for the engine. -/
def keys : List String := ["workers", "unit_timeout", "partial_results"]

/-- The number of workers. -/
def readWorkers (raw : Entries) : Configuring Int :=
  match raw.get? "workers" with
  | none => return 4
  | some (.int n) => if 1 ≤ n && n ≤ 256 then return n else refuse (.badWorkers (.int n))
  | some value => refuse (.badWorkers value)

/-- The time limit of a unit: a positive number. -/
def readTimeout (raw : Entries) : Configuring (Option Float) :=
  match raw.get? "unit_timeout" with
  | none => return none
  | some .null => return none
  | some (.int n) =>
    if n ≤ 0 then refuse (.badTimeout (.int n))
    else return some (← (Number.floatOfInt n).mapError ConfigFailure.overflow)
  | some (.real x) =>
    if (Number.real x).le (.int 0) then refuse (.badTimeout (.real x)) else return some x
  | some value => refuse (.badTimeout value)

/-- Whether partial results are enough. -/
def readPartialResults (raw : Entries) : Configuring Bool :=
  match raw.get? "partial_results" with
  | none => return false
  | some (.bool b) => return b
  | some _ => refuse .badPartialResults

/-- The engine settings of a configuration. -/
def ofValue : Option Value → Configuring EngineSettings
  | none => return {}
  | some .null => return {}
  | some (.mapping raw) => do
    let unknown ← unknownKeys keys raw
    if !unknown.isEmpty then refuse (.unknownEngineSettings unknown)
    let workers ← readWorkers raw
    let unitTimeout ← readTimeout raw
    let partialResults ← readPartialResults raw
    return { workers, unitTimeout, partialResults }
  | some _ => refuse .engineNotMapping

end EngineSettings

/-- A configuration. -/
structure Config where
  catalog : Catalog := .default
  engine : EngineSettings := {}

namespace Config

variable [CharacterNames]

/-- The sections of a configuration. -/
def keys : List String := ["engine", "rules"]

/-- Reads a configuration. Null stands for the default one. -/
def ofValue : Value → Configuring Config
  | .null => return {}
  | .mapping raw => do
    let unknown ← unknownKeys keys raw
    if !unknown.isEmpty then refuse (.unknownSections unknown)
    let catalog ← Catalog.ofValue (Entries.get? raw "rules")
    let engine ← EngineSettings.ofValue (Entries.get? raw "engine")
    return { catalog, engine }
  | _ => refuse .notMapping

end Config

end Hazard
