import Hazard.Config.Error
import Hazard.Rule.Table

set_option autoImplicit false

/-! # The catalog

A catalog holds the settings of every rule. A configuration can change the settings of each rule
on its own; a rule that it does not mention keeps its defaults. -/

namespace Hazard

open Configuring (refuse name)

variable [CharacterNames]

/-- The texts of the keys that are not known, in order. -/
def unknownKeys (known : List String) (entries : Entries) : Configuring (List String) := do
  let unknown := entries.filter fun (k, _) => !isKnown k
  return Text.sorted (← unknown.mapM fun (k, _) => name k)
where
  isKnown : Scalar → Bool
    | .text s => known.contains s
    | _ => false

namespace ThresholdSpec

/-- A whole number that is not below a bound. -/
def checkMinimum (name : String) (n : Int) : Option Number → Configuring Unit
  | none => return
  | some bound =>
    if (Number.int n).lt bound then refuse (.thresholdTooSmall name n bound) else return

/-- A whole number that is not above a bound. -/
def checkMaximum (name : String) (n : Int) : Option Number → Configuring Unit
  | none => return
  | some bound =>
    if bound.lt (.int n) then refuse (.thresholdTooLarge name n bound) else return

/-- A whole number within its bounds. -/
def validateCount (name : String) (minimum maximum : Option Number) : Value → Configuring Int
  | .int n => do
    checkMinimum name n minimum
    checkMaximum name n maximum
    return n
  | value => refuse (.thresholdNotInteger name value)

/-- Patterns that can all be read. -/
def validatePatterns (name : String) : List Value → Configuring (List String)
  | [] => return []
  | .text p :: rest =>
    match Pattern.parse p with
    | .ok _ => return p :: (← validatePatterns name rest)
    | .error e =>
      match e.failure? with
      | some failure => throw failure
      | none => refuse (.badPattern name p e)
  | value :: _ => refuse (.patternNotText name value)

/-- Checks the value of a threshold. -/
def validate (spec : ThresholdSpec) (name : String) (value : Value) : Configuring Value :=
  match spec with
  | count _ minimum maximum => return .int (← validateCount name minimum maximum value)
  | patterns _ =>
    match value with
    | .list values => return .texts (← validatePatterns name values)
    | _ => refuse (.patternsNotList name)

end ThresholdSpec

namespace RuleSettings

/-- What can be set for a rule. -/
def keys : List String := ["enabled", "severity", "confidence", "thresholds"]

/-- Replaces the value of a threshold. -/
def putThreshold (name : String) (t : Value) : Thresholds → Thresholds
  | [] => [(name, t)]
  | (n, old) :: rest => if n == name then (n, t) :: rest else (n, old) :: putThreshold name t rest

/-- Whether a rule is enabled. -/
def readEnabled (rule : String) (raw : Entries) : Configuring Bool :=
  match raw.get? "enabled" with
  | none => return true
  | some (.bool b) => return b
  | some _ => refuse (.badEnabled rule)

/-- One of the given levels; null stands for the default. -/
def readLevel (levels : List String) (raw : Entries) (key : String)
    (error : Value → ConfigError) : Configuring (Option String) :=
  match raw.get? key with
  | none => return none
  | some .null => return none
  | some (.text s) => if levels.contains s then return some s else refuse (error (.text s))
  | some value => refuse (error value)

/-- The thresholds in the order in which they are written, over the given ones. -/
def readThresholds (r : RuleInfo) (thresholds : Thresholds) : Entries → Configuring Thresholds
  | [] => return thresholds
  | (key, value) :: rest => do
    let spec? :=
      match key with
      | .text name => r.thresholds.lookup name
      | _ => none
    match spec? with
    | none => refuse (.unknownThreshold r.id (← name key))
    | some spec =>
      let t ← spec.validate (r.id ++ "." ++ key.plain) value
      readThresholds r (putThreshold key.plain t thresholds) rest

/-- The thresholds of a rule; any value that says nothing stands for none. -/
def readThresholdField (r : RuleInfo) (raw : Entries) : Configuring Thresholds :=
  match raw.get? "thresholds" with
  | none => return r.defaults.thresholds
  | some value =>
    if value.isEmpty then return r.defaults.thresholds
    else
      match value with
      | .mapping entries => readThresholds r r.defaults.thresholds entries
      | _ => refuse (.thresholdsNotMapping r.id)

/-- The settings of a rule: nothing, a switch, or a mapping. -/
def ofValue (r : RuleInfo) : Option Value → Configuring RuleSettings
  | none => return r.defaults
  | some .null => return r.defaults
  | some (.bool b) => return { r.defaults with enabled := b }
  | some (.mapping raw) => do
    let unknown ← unknownKeys keys raw
    if !unknown.isEmpty then refuse (.unknownSettings r.id unknown)
    let enabled ← readEnabled r.id raw
    let severity ← readLevel severityLevels raw "severity" (.badSeverity r.id)
    let confidence ← readLevel confidenceLevels raw "confidence" (.badConfidence r.id)
    let thresholds ← readThresholdField r raw
    return { rule := r.id, enabled, severity, confidence, thresholds }
  | some _ => refuse (.settingsNotMapping r.id)

end RuleSettings

/-- The settings of all rules, in order. -/
structure Catalog where
  settings : List RuleSettings
  deriving Repr

namespace Catalog

/-- The catalog without any configuration. -/
def default : Catalog := ⟨ruleInfos.map (·.defaults)⟩

/-- The catalog of a configuration's rules. An id that is not known is refused before anything
    else is looked at. -/
def ofValue : Option Value → Configuring Catalog
  | none => return default
  | some .null => return default
  | some (.mapping raw) => do
    let unknown ← unknownKeys (rules.map (·.id)) raw
    if !unknown.isEmpty then refuse (.unknownRules unknown)
    return ⟨← rules.mapM fun r => RuleSettings.ofValue r.toRuleInfo (Entries.get? raw r.id)⟩
  | some _ => refuse .rulesNotMapping

/-- The settings of one rule. -/
def get (c : Catalog) (id : String) : Except ConfigError RuleSettings :=
  match c.settings.find? (·.rule == id) with
  | some s => .ok s
  | none => .error (.unknownRule id)

/-- The rules that are enabled, with their settings. -/
def enabled (c : Catalog) : Except ConfigError (List (Rule × RuleSettings)) :=
  (c.settings.filter (·.enabled)).mapM fun s =>
    match rule? s.rule with
    | some r => .ok (r, s)
    | none => .error (.unknownRule s.rule)

end Catalog

end Hazard
