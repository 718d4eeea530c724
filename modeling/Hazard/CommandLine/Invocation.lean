import Hazard.CommandLine.Word
import Hazard.Text.Numeral

set_option autoImplicit false

/-! # Invocations

What a command line asks for. There are two commands: one analyses files, the other lists the
rules. The files have to stand together; a later option wins over an earlier one of its kind. -/

namespace Hazard

/-- The number of workers as it is asked for. -/
inductive WorkerCount where
  | count (n : Int)
  /-- A value is given, but it is only a divider, so nothing is left of it. -/
  | blank
  deriving DecidableEq, Repr

/-- What is to be analysed, and how. -/
structure AnalyzeOptions where
  config : Option String := none
  out : Option String := none
  workers : Option WorkerCount := none
  hideSuppressed : Bool := false
  files : List String := []
  deriving DecidableEq, Repr

/-- What a command line asks for. -/
inductive Invocation where
  | help
  /-- The command line makes no sense. -/
  | misuse
  | listRules
  | analyze (options : AnalyzeOptions)
  deriving DecidableEq, Repr

namespace CommandLine

/-- The options of every command. -/
def helpSpellings : Spellings := [("-h", .help), ("--help", .help)]

/-- The options of the analysis. -/
def analyzeSpellings : Spellings :=
  helpSpellings ++
    [("--config", .config), ("--out", .out), ("--workers", .workers),
     ("--hide-suppressed", .hideSuppressed)]

/-- What has been read of a command. -/
structure Progress where
  options : AnalyzeOptions := {}
  /-- Whether the files have been read, or there are none to be read. -/
  hasFiles : Bool
  /-- Whether something has been left over. -/
  hasRest : Bool := false
  deriving DecidableEq, Repr

/-- What further letters after a request for help give. Each is an option by itself, so all of them
    have to ask for help as well. -/
def helpLetters (cs : List Char) : Invocation := if cs.all (· == 'h') then .help else .misuse

/-- What a request for help gives. It takes no value. -/
def askHelp : Attachment → Invocation
  | .nothing => .help
  | .value _ => .misuse
  | .letters cs => helpLetters cs

/-- Sets the value of an option. A divider is no value: nothing is left of it. -/
def setValue (o : AnalyzeOptions) (flag : Flag) (value : String) : Option AnalyzeOptions :=
  let isBlank := value == dividerText
  let text := if isBlank then "" else value
  match flag with
  | .config => some { o with config := some text }
  | .out => some { o with out := some text }
  | .workers =>
    if isBlank then some { o with workers := some .blank }
    else (Text.integer? value).map fun n => { o with workers := some (.count n) }
  | _ => none

/-- Whether a word is an argument or the divider. -/
def Word.isPositional : Word → Bool
  | .argument _ => true
  | .divider => true
  | _ => false

/-- Whether a word is an argument. -/
def Word.isArgument : Word → Bool
  | .argument _ => true
  | _ => false

/-- The texts of arguments and dividers. -/
def positionalTexts (ws : List Word) : List String :=
  ws.filterMap fun
    | .argument text => some text
    | .divider => some dividerText
    | _ => none

/-- Takes a row of arguments and dividers for the files, if there is at least one argument and the
    files are yet to be read. The first divider among them is no file. -/
def Progress.takeFiles (p : Progress) (row : List Word) : Progress :=
  if p.hasFiles || !row.any Word.isArgument then { p with hasRest := true }
  else
    { p with
      options := { p.options with files := (positionalTexts row).erase dividerText }
      hasFiles := true }

/-- Reads the words of a command. The bound is on the number of steps. -/
def readWords : (bound : Nat) → Progress → List Word → Progress ⊕ Invocation
  | 0, p, _ => .inl p
  | _ + 1, p, [] => .inl p
  | bound + 1, p, word :: rest =>
    match word with
    | .unknownOption => readWords bound { p with hasRest := true } rest
    | .option .help attached => .inr (askHelp attached)
    | .option .hideSuppressed .nothing =>
      readWords bound { p with options := { p.options with hideSuppressed := true } } rest
    | .option flag (.value value) =>
      match setValue p.options flag value with
      | some options => readWords bound { p with options } rest
      | none => .inr .misuse
    | .option flag .nothing =>
      match rest with
      | .argument value :: rest =>
        match setValue p.options flag value with
        | some options => readWords bound { p with options } rest
        | none => .inr .misuse
      | _ => .inr .misuse
    | .option _ (.letters _) => .inr .misuse
    | _ =>
      let row := (word :: rest).takeWhile Word.isPositional
      readWords bound (p.takeFiles row) ((word :: rest).dropWhile Word.isPositional)

/-- Reads what follows a command. -/
def readCommand (spellings : Spellings) (takesFiles : Bool) (texts : List String) :
    Progress ⊕ Invocation :=
  match words? spellings texts with
  | none => .inr .misuse
  | some words => readWords (words.length + 1) { hasFiles := !takesFiles } words

/-- What comes of the words after a command, if nothing has been left over. -/
def finish (hasRest : Bool) (result : Progress ⊕ Invocation)
    (invocation : AnalyzeOptions → Invocation) : Invocation :=
  match result with
  | .inr i => i
  | .inl p =>
    if hasRest || p.hasRest || !p.hasFiles then .misuse else invocation p.options

/-- Reads a command and what follows it. -/
def readNamed (hasRest : Bool) (name : String) (texts : List String) : Invocation :=
  match name with
  | "analyze" => finish hasRest (readCommand analyzeSpellings true texts) .analyze
  | "rules" => finish hasRest (readCommand helpSpellings false texts) fun _ => .listRules
  | _ => .misuse

/-- Reads the words up to the command. -/
def readOuter (hasRest : Bool) : List String → Invocation
  | [] => .misuse
  | text :: rest =>
    if text == dividerText then .misuse
    else
      match Word.ofText? helpSpellings text with
      | none => .misuse
      | some (.option _ attached) => askHelp attached
      | some (.argument name) => readNamed hasRest name rest
      | some _ => readOuter true rest

end CommandLine

/-- Reads a command line. -/
def Invocation.ofArgs (args : List String) : Invocation := CommandLine.readOuter false args

end Hazard
