import Hazard.Rule.Race
import Hazard.Rule.Scaling
import Hazard.Rule.Time

set_option autoImplicit false

/-! # All rules -/

namespace Hazard

variable [CharacterNames]

/-- The rules, in the order in which they are run and listed. -/
def rules : List Rule :=
  [HandlerSafety.rule, UnguardedAccess.rule, LeakedReference.rule, LoadThenStore.rule,
   ZeroCapacity.rule, ShortReadWrite.rule, TimerLeak.rule, StructuralEquality.rule,
   ElapsedSign.rule, MixedOrdering.rule]

/-- What is fixed about the rules, in the same order. -/
def ruleInfos : List RuleInfo :=
  [HandlerSafety.info, UnguardedAccess.info, LeakedReference.info, LoadThenStore.info,
   ZeroCapacity.info, ShortReadWrite.info, TimerLeak.info, StructuralEquality.info,
   ElapsedSign.info, MixedOrdering.info]

theorem map_toRuleInfo_rules : rules.map (·.toRuleInfo) = ruleInfos := rfl

/-- The rule with an id. -/
def rule? (id : String) : Option Rule := rules.find? (·.id == id)

end Hazard
