import Hazard.CommandLine.Run
import Hazard.Yaml.Load

set_option autoImplicit false

/-! # The program

Reads the files that the command line names, runs, and does what the run asks for. The values in the
files are those that `Hazard.Yaml` finds, and no pattern can ask for a character by its name. The
clock of a run stands still, so a report depends on the files alone. -/

namespace Hazard

/-- The paths that a command line makes the program read. -/
def Invocation.paths (i : Invocation) (defaultConfig : Option String) : List String :=
  match i with
  | analyze o => ((o.config <|> defaultConfig).toList.filter (· != "")) ++ o.files
  | _ => []

/-- Why a file cannot be read. -/
def FileError.ofError : IO.Error → FileError
  | .noFileOrDirectory .. => missing
  | e => refused e.toString

/-- What reading a path gives now. -/
def readFile (path : String) : IO (Except FileError (List UInt8)) := do
  if path.contains '\x00' then
    return .error (.fault (.withMessage "ValueError" "embedded null byte"))
  try
    return .ok (← IO.FS.readBinFile path).toList
  catch e => return .error (.ofError e)

/-- What reading the given paths gives now. -/
def readFiles (paths : List String) : IO Files := do
  let contents ← paths.mapM fun path => return (path, ← readFile path)
  return fun path => (contents.lookup path).getD (.error .missing)

/-- A short reminder of the commands. -/
def usage : String :=
  "usage: vigil analyze [--config FILE] [--out FILE] [--workers N] [--hide-suppressed] FILE...\n"
    ++ "       vigil rules\n"

/-- Does what a run asks for. -/
def RunResult.perform (r : RunResult) : IO UInt32 := do
  for notice in r.notices do
    IO.eprint notice.line
  IO.print r.printed
  match r.written with
  | some (path, text) => IO.FS.writeFile path text
  | none => pure ()
  return r.exitCode.toUInt32

end Hazard

open Hazard Hazard.CharacterNames in
/-- The program. It knows no characters by their names. -/
def main (args : List String) : IO UInt32 := do
  let invocation := Invocation.ofArgs args
  let defaultConfig ← IO.getEnv "VIGIL_CONFIG"
  let files ← readFiles (invocation.paths defaultConfig)
  match invocation with
  | .help => IO.print usage
  | .misuse => IO.eprint usage
  | _ => pure ()
  match invocation.run { files, loader := Yaml.loader, defaultConfig } with
  | .ok result => result.perform
  | .error halt =>
    for notice in halt.notices do
      IO.eprint notice.line
    IO.eprintln halt.fault.display
    return 1
