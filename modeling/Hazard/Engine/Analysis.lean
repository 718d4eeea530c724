import Hazard.Config.Basic
import Hazard.Engine.Pass

set_option autoImplicit false

/-! # The analysis of a run

All units are analysed, and what is found is put in order. The outcome tells at a glance whether
there is anything to look at. -/

namespace Hazard

/-- How a run ends. -/
inductive Outcome where
  /-- There is nothing left to look at. -/
  | clean
  /-- There are findings that have not been accepted. -/
  | findings
  /-- The run itself had troubles. -/
  | engineError
  deriving DecidableEq, Repr

instance : Worded Outcome where
  members := [.clean, .findings, .engineError]
  word
    | .clean => "clean"
    | .findings => "findings"
    | .engineError => "engine_error"

/-- The outcome of a run with the given diagnostics. Troubles of the run count as findings when
    partial results are enough. -/
def Outcome.of (partialResults : Bool) (ds : List Diagnostic) : Outcome :=
  if !partialResults && ds.any (·.isAboutRun) then engineError
  else if ds.any (!·.suppressed) then findings
  else clean

/-- A run that stops without a result, and what it has had to say by then. -/
structure Halt where
  fault : Fault
  notices : List Notice := []
  deriving Repr

/-- The result of a run. -/
structure Analysis where
  diagnostics : List Diagnostic
  outcome : Outcome
  notices : List Notice := []
  deriving Repr

namespace Analysis

/-- The findings that have not been accepted. -/
def actionable (a : Analysis) : List Diagnostic := a.diagnostics.filter (!·.suppressed)

/-- The findings that have been accepted. -/
def suppressed (a : Analysis) : List Diagnostic := a.diagnostics.filter (·.suppressed)

/-- What comes of a pass over all units. -/
def ofPass (settings : EngineSettings) (pass : Pass) : Except Halt Analysis :=
  match pass.halt with
  | some o => throw { fault := .ofOverflow o, notices := pass.notices }
  | none =>
    let diagnostics := Diagnostic.sorted pass.diagnostics
    return { diagnostics, outcome := .of settings.partialResults diagnostics
             notices := pass.notices }

/-- Analyses the units by the given rules. -/
def ofUnits (settings : EngineSettings) (rules : RuleList) (s : Schedule)
    (units : List Ingested) : Except Halt Analysis :=
  ofPass settings (Pass.ofUnits s settings.unitTimeout rules units 0)

/-- The notices of the ingestion. -/
def ingestNotices (sources : List (String × Ingestion)) : List Notice :=
  Notice.once (sources.flatMap fun (source, i) => i.allNotices source)

/-- Ingests the sources and analyses what comes of it. All sources are ingested before the first
    unit is analysed. -/
def ofSources (settings : EngineSettings) (rules : RuleList) (s : Schedule)
    (sources : List (String × Ingestion)) : Except Halt Analysis :=
  match ofUnits settings rules s (sources.map fun (source, i) => i.settle source) with
  | .ok a => return { a with notices := ingestNotices sources ++ a.notices }
  | .error h => throw { h with notices := ingestNotices sources ++ h.notices }

end Analysis

/-- Why a run has no result. -/
inductive RunFailure where
  /-- The run does not start, since the configuration cannot be used. -/
  | refused (e : ConfigError)
  | halted (h : Halt)
  deriving Repr

/-- Ingests the sources and analyses them by the rules that are enabled. -/
def Config.analyze [CharacterNames] (c : Config) (s : Schedule)
    (sources : List (String × Ingestion)) :
    Except RunFailure Analysis := do
  let rules ← c.catalog.enabled.mapError RunFailure.refused
  (Analysis.ofSources c.engine rules s sources).mapError RunFailure.halted

end Hazard
