import Hazard.CommandLine.Invocation
import Hazard.Config.File
import Hazard.Engine.Analysis
import Hazard.Engine.DocumentFile
import Hazard.Report.Basic

set_option autoImplicit false

/-! # Runs

What the program prints, writes and returns, given a command line and the files it can read. -/

namespace Hazard

/-- What the surroundings provide. -/
structure Surroundings where
  files : Files
  loader : Loader
  /-- The configuration file that is used when the command line names none. -/
  defaultConfig : Option String := none
  schedule : Schedule := .still

/-- What a run does. -/
structure RunResult where
  exitCode : Nat
  /-- What is printed. -/
  printed : String := ""
  /-- What is written to a file. -/
  written : Option (String × String) := none
  notices : List Notice := []

/-- The exit code of an outcome. -/
def Outcome.exitCode : Outcome → Nat
  | clean => 0
  | findings => 1
  | engineError => 2

/-- The exit code when the command line makes no sense. -/
def misuseExitCode : Nat := 2

/-- The exit code when the configuration cannot be used. -/
def configExitCode : Nat := 3

/-! ## The list of rules -/

/-- A text filled up with blanks to a width. -/
def padRight (width : Nat) (s : String) : String :=
  s ++ String.ofList (List.replicate (width - s.length) ' ')

/-- The line of a rule. -/
def RuleInfo.line (r : RuleInfo) : String :=
  let markers := if r.markers.isEmpty then "" else " [markers: " ++ commaList r.markers ++ "]"
  s!"{padRight 5 r.id} {padRight 6 r.severity} {padRight 6 r.confidence} {r.title}{markers}\n"

/-- The list of the rules. -/
def ruleListing : String := String.join (ruleInfos.map (·.line))

/-! ## Analyses -/

variable [CharacterNames]

namespace AnalyzeOptions

/-- The configuration that is asked for. An empty name stands for none. -/
def loadConfig (o : AnalyzeOptions) (env : Surroundings) : Except ConfigFileError Config :=
  match (o.config <|> env.defaultConfig).getD "" with
  | "" => return {}
  | path => Config.load env.files env.loader path

/-- The configuration with the number of workers that is asked for. -/
def configure (o : AnalyzeOptions) (env : Surroundings) : Except ConfigFileError Config := do
  let c ← o.loadConfig env
  match o.workers with
  | none => return c
  | some .blank => throw (.fault (.notComparable "<" "list" "int"))
  | some (.count n) =>
    if n < 1 then throw (.refused .tooFewWorkers)
    else return { c with engine := { c.engine with workers := n } }

/-- Reports an analysis, unless a number in the report cannot be written. -/
def present (o : AnalyzeOptions) (a : Analysis) : Except Halt RunResult :=
  let result : RunResult := { exitCode := a.outcome.exitCode, notices := a.notices }
  match report (if o.hideSuppressed then a.actionable else a.diagnostics) with
  | .error e => throw { fault := .ofNumeral e, notices := a.notices }
  | .ok text =>
    match o.out.getD "" with
    | "" => return { result with printed := text }
    | path => return { result with written := some (path, text) }

/-- A run that does not start since the configuration cannot be used. -/
def refused (e : ConfigError) : RunResult :=
  { exitCode := configExitCode, notices := [.badConfiguration e.message] }

/-- Analyses the files. -/
def run (o : AnalyzeOptions) (env : Surroundings) : Except Halt RunResult :=
  match o.configure env with
  | .error (.refused e) => return refused e
  | .error (.fault f) => throw { fault := f }
  | .ok c =>
    let sources := o.files.map fun path => (path, Ingestion.ofFile env.files env.loader path)
    match c.analyze env.schedule sources with
    | .ok a => o.present a
    | .error (.refused e) => return refused e
    | .error (.halted h) => throw h

end AnalyzeOptions

/-- Does what a command line asks for. -/
def Invocation.run (i : Invocation) (env : Surroundings) : Except Halt RunResult :=
  match i with
  | help => return { exitCode := 0 }
  | misuse => return { exitCode := misuseExitCode }
  | listRules => return { exitCode := 0, printed := ruleListing }
  | analyze options => options.run env

end Hazard
