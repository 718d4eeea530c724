import Hazard.CommandLine.Run
import Hazard.Proofs.Config.Refusal
import Hazard.Yaml.Load

set_option autoImplicit false

/-! # Runs with a configuration file

A run with a configuration that it cannot honour must not start: whatever is wrong with the file or
what is in it should be refused, and the program should end with the exit code for that. What comes
of opening the file and loading its bytes is not up to the program. If the file is missing, the
system refuses it or its text is malformed, then it is refused. But there can be other outcomes, as
with bytes that are no text, and these break the program as much as the culprits in a configuration.

The files, the loader and the names of characters are arbitrary here. What is left out is the stack:
values and patterns are nested as deeply as one likes, where an interpreter with a bounded stack
gives up. -/

namespace Hazard

namespace Config

variable {files : Files} {loader : Loader} {path : String}

variable [CharacterNames]

end Config

/-! ## Runs -/

section

variable [CharacterNames]

namespace AnalyzeOptions

variable {o : AnalyzeOptions} {env : Surroundings} {path : String}

end AnalyzeOptions

end

open scoped CharacterNames

end Hazard
