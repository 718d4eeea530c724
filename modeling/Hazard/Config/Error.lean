import Hazard.Pattern.Error
import Hazard.Rule.Basic
import Hazard.Value.Text

set_option autoImplicit false

/-! # What can be wrong with a configuration -/

namespace Hazard

/-- Why a configuration is refused. -/
inductive ConfigError where
  | notMapping
  | unknownSections (names : List String)
  | rulesNotMapping
  | unknownRules (ids : List String)
  | unknownRule (id : String)
  | settingsNotMapping (rule : String)
  | unknownSettings (rule : String) (names : List String)
  | badEnabled (rule : String)
  | badSeverity (rule : String) (value : Value)
  | badConfidence (rule : String) (value : Value)
  | thresholdsNotMapping (rule : String)
  | unknownThreshold (rule name : String)
  | thresholdNotInteger (name : String) (value : Value)
  | thresholdTooSmall (name : String) (value : Int) (minimum : Number)
  | thresholdTooLarge (name : String) (value : Int) (maximum : Number)
  | patternsNotList (name : String)
  | patternNotText (name : String) (value : Value)
  | badPattern (name pattern : String) (e : PatternError)
  | engineNotMapping
  | unknownEngineSettings (names : List String)
  | badWorkers (value : Value)
  | badTimeout (value : Value)
  | badPartialResults
  | fileMissing (path : String)
  /-- The file is there, but cannot be read, for the given reason. -/
  | fileUnreadable (path reason : String)
  /-- The text of the file is malformed, for the given reason. -/
  | fileMalformed (path reason : String)
  | tooFewWorkers
  deriving Repr

/-- The names, separated by commas. -/
def commaList (names : List String) : String := ", ".intercalate names

/-- The wording of the errors of a configuration. -/
def ConfigError.message : ConfigError → String
  | notMapping => "configuration document must be a mapping"
  | unknownSections names => "unknown configuration section(s): " ++ commaList names
  | rulesNotMapping => "'rules' must be a mapping of rule id to settings"
  | unknownRules ids => "unknown rule id(s): " ++ commaList ids
  | unknownRule id => s!"unknown rule id '{id}'"
  | settingsNotMapping rule => s!"settings for rule '{rule}' must be a mapping"
  | unknownSettings rule names => s!"rule '{rule}' has unknown setting(s): " ++ commaList names
  | badEnabled rule => s!"rule '{rule}': 'enabled' must be true or false"
  | badSeverity rule value =>
    s!"rule '{rule}': severity {value.shown} is not one of " ++ commaList severityLevels
  | badConfidence rule value =>
    s!"rule '{rule}': confidence {value.shown} is not one of " ++ commaList confidenceLevels
  | thresholdsNotMapping rule => s!"rule '{rule}': 'thresholds' must be a mapping"
  | unknownThreshold rule name => s!"rule '{rule}' has no threshold named '{name}'"
  | thresholdNotInteger name value =>
    s!"threshold '{name}' must be an integer, got {value.shown}"
  | thresholdTooSmall name value minimum =>
    s!"threshold '{name}'={value} is below minimum {minimum.text}"
  | thresholdTooLarge name value maximum =>
    s!"threshold '{name}'={value} is above maximum {maximum.text}"
  | patternsNotList name => s!"threshold '{name}' must be a list of regular expressions"
  | patternNotText name value =>
    s!"threshold '{name}' entries must be strings, got {value.shown}"
  | badPattern name pattern e =>
    s!"threshold '{name}' has invalid pattern {Text.quoted pattern}: " ++ e.message pattern
  | engineNotMapping => "'engine' must be a mapping"
  | unknownEngineSettings names => "unknown engine setting(s): " ++ commaList names
  | badWorkers value => s!"engine.workers must be an integer in 1..256, got {value.shown}"
  | badTimeout value =>
    s!"engine.unit_timeout must be a positive number of seconds, got {value.shown}"
  | badPartialResults => "engine.partial_results must be true or false"
  | fileMissing path => s!"configuration file not found: {path}"
  | fileUnreadable path reason => s!"could not read configuration file {path}: {reason}"
  | fileMalformed path reason => s!"configuration file {path} is not valid YAML: {reason}"
  | tooFewWorkers => "--workers must be at least 1"

/-- The values that an error shows. -/
def ConfigError.shows : ConfigError → List Value
  | badSeverity _ value => [value]
  | badConfidence _ value => [value]
  | thresholdNotInteger _ value => [value]
  | thresholdTooSmall _ value _ => [.int value]
  | thresholdTooLarge _ value _ => [.int value]
  | patternNotText _ value => [value]
  | badWorkers value => [value]
  | badTimeout value => [value]
  | _ => []

/-- Why a configuration cannot be used: it is refused, a number in it is too large, or a pattern in
    it has flags that exclude each other. -/
inductive ConfigFailure where
  | refused (e : ConfigError)
  | overflow (o : Overflow)
  | numeral (e : NumeralError)
  | clash (e : FlagClash)
  deriving Repr

/-- The wording of the failures. -/
def ConfigFailure.message : ConfigFailure → String
  | refused e => e.message
  | overflow o => o.message
  | numeral e => e.message
  | clash e => e.message

/-- The failure of a pattern that is not refused. -/
def PatternError.failure? : PatternError → Option ConfigFailure
  | .overflow o => some (.overflow o)
  | .numeral e => some (.numeral e)
  | .clash e => some (.clash e)
  | _ => none

/-- Reading a part of a configuration. -/
abbrev Configuring (α : Type) := Except ConfigFailure α

namespace Configuring

/-- Refuses a configuration, if what it shows can be shown. -/
def refuse {α : Type} (e : ConfigError) : Configuring α :=
  .error (if e.shows.all Value.isWritable then .refused e else .numeral .unwritable)

/-- The text of a key. -/
def name (key : Scalar) : Configuring String :=
  (Value.scalar key).written.mapError ConfigFailure.numeral

end Configuring

end Hazard
