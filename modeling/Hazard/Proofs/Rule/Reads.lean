import Hazard.Rule.Table

set_option autoImplicit false

/-! # What rules read

A rule is given all facts about a unit and all of its own settings, and could make use of any of
them. The rules of the table leave two things alone. They do not look at the waivers of the unit:
whether a finding is accepted is up to the engine. And of the settings they read the thresholds
only: the levels are put in by the engine, and a rule that is not enabled is not run.

Where a rule asks about the unit, the answer does not depend on the waivers, so there is one lemma
for each question, and those about the rules follow from them. They are stated of functions and not
of their values, since the rules hand functions on to others. -/

namespace Hazard

/-! ## The waivers of the unit -/

/-- The same facts with other waivers of the unit. -/
def Model.withWaivers (m : Model) (ws : List Waiver) : Model := { m with waivers := ws }

section Waivers

variable (m : Model) (ws : List Waiver)

namespace Model

@[simp] theorem waivers_withWaivers : (m.withWaivers ws).waivers = ws := rfl

@[simp] theorem binding?_withWaivers : (m.withWaivers ws).binding? = m.binding? := rfl

@[simp] theorem lock?_withWaivers : (m.withWaivers ws).lock? = m.lock? := rfl

@[simp] theorem function?_withWaivers : (m.withWaivers ws).function? = m.function? := rfl

@[simp] theorem instant?_withWaivers : (m.withWaivers ws).instant? = m.instant? := rfl

@[simp] theorem locate_withWaivers : (m.withWaivers ws).locate = m.locate := by
  funext places
  induction places with
  | nil => rfl
  | cons place rest ih =>
      cases place with
      | some loc => rfl
      | none => exact ih

@[simp] theorem reachableFunctions_withWaivers :
    (m.withWaivers ws).reachableFunctions = m.reachableFunctions := rfl

@[simp] theorem taskReach_withWaivers : (m.withWaivers ws).taskReach = m.taskReach := rfl

@[simp] theorem tasksReaching_withWaivers :
    (m.withWaivers ws).tasksReaching = m.tasksReaching := rfl

@[simp] theorem handlers_withWaivers : (m.withWaivers ws).handlers = m.handlers := rfl

@[simp] theorem dominators_withWaivers : (m.withWaivers ws).dominators = m.dominators := rfl

@[simp] theorem isReachable_withWaivers : (m.withWaivers ws).isReachable = m.isReachable := rfl

@[simp] theorem guardedBlocks_withWaivers :
    (m.withWaivers ws).guardedBlocks = m.guardedBlocks := rfl

@[simp] theorem excludes_withWaivers : (m.withWaivers ws).excludes = m.excludes := rfl

@[simp] theorem isGuarded_withWaivers : (m.withWaivers ws).isGuarded = m.isGuarded := rfl

@[simp] theorem unstoppedExitPaths_withWaivers :
    (m.withWaivers ws).unstoppedExitPaths = m.unstoppedExitPaths := rfl

@[simp] theorem derivationChain_withWaivers :
    (m.withWaivers ws).derivationChain = m.derivationChain := rfl

@[simp] theorem strippingTransformation_withWaivers :
    (m.withWaivers ws).strippingTransformation = m.strippingTransformation := rfl

end Model

/-- A rule that does not look at the waivers of the unit. -/
def Rule.IgnoresWaivers (r : Rule) : Prop :=
  ∀ (m : Model) (ws : List Waiver) (settings : RuleSettings),
    r.evaluate (m.withWaivers ws) settings = r.evaluate m settings

namespace HandlerSafety

theorem sharers_withWaivers : sharers (m.withWaivers ws) = sharers m := rfl

theorem runners_withWaivers : runners (m.withWaivers ws) = runners m := rfl

theorem finding_withWaivers : finding (m.withWaivers ws) = finding m := by
  funext r h f a b shared
  simp only [finding, Model.locate_withWaivers]

theorem finding?_withWaivers : finding? (m.withWaivers ws) = finding? m := by
  funext running r h f a
  simp only [finding?, Model.binding?_withWaivers, Model.isReachable_withWaivers,
    Model.isGuarded_withWaivers, sharers_withWaivers, finding_withWaivers]

theorem rule_ignoresWaivers [CharacterNames] : rule.IgnoresWaivers := by
  intro m ws settings
  have hfindings : findings (m.withWaivers ws) = findings m := by
    funext isRouter
    simp only [findings, Model.handlers_withWaivers, Model.reachableFunctions_withWaivers,
      Model.function?_withWaivers, runners_withWaivers, finding?_withWaivers]
  simp only [rule, hfindings]

end HandlerSafety

namespace UnguardedAccess

theorem sharedSites_withWaivers : sharedSites (m.withWaivers ws) = sharedSites m := rfl

theorem findings_withWaivers : findings (m.withWaivers ws) = findings m := by
  funext b sites
  simp only [findings, finding, Model.isGuarded_withWaivers, Model.locate_withWaivers]

theorem rule_ignoresWaivers : rule.IgnoresWaivers := by
  intro m ws settings
  have hfindingsFor : findingsFor (m.withWaivers ws) = findingsFor m := by
    funext reach minTasks b
    simp only [findingsFor, sharedSites_withWaivers, findings_withWaivers]
  simp only [rule, hfindingsFor, Model.taskReach_withWaivers]
  rfl

end UnguardedAccess

namespace LeakedReference

theorem leak?_withWaivers : leak? (m.withWaivers ws) = leak? m := by
  funext s guarded f site
  simp only [leak?, Model.binding?_withWaivers, Model.excludes_withWaivers,
    Model.locate_withWaivers]

theorem rule_ignoresWaivers : rule.IgnoresWaivers := by
  intro m ws settings
  have hleaks : leaks (m.withWaivers ws) = leaks m := by
    funext s
    simp only [leaks, Model.function?_withWaivers, Model.guardedBlocks_withWaivers,
      leak?_withWaivers]
  simp only [rule, hleaks]
  rfl

end LeakedReference

namespace LoadThenStore

theorem finding_withWaivers : finding (m.withWaivers ws) = finding m := by
  funext map function store load
  simp only [finding, Model.tasksReaching_withWaivers, Model.locate_withWaivers]

theorem findingsIn_withWaivers : findingsIn (m.withWaivers ws) = findingsIn m := by
  funext minTasks map function
  simp only [findingsIn, Model.tasksReaching_withWaivers, Model.dominators_withWaivers,
    finding_withWaivers]

theorem rule_ignoresWaivers : rule.IgnoresWaivers := by
  intro m ws settings
  have hfindingsFor : findingsFor (m.withWaivers ws) = findingsFor m := by
    funext minTasks map
    simp only [findingsFor, findingsIn_withWaivers]
  simp only [rule, hfindingsFor]
  rfl

end LoadThenStore

namespace ZeroCapacity

theorem rule_ignoresWaivers : rule.IgnoresWaivers := by
  intro m ws settings
  have hfinding : finding (m.withWaivers ws) = finding m := by
    funext c
    simp only [finding, Model.locate_withWaivers]
  simp only [rule, hfinding]
  rfl

end ZeroCapacity

namespace ShortReadWrite

theorem finding_withWaivers : finding (m.withWaivers ws) = finding m := by
  funext s l
  simp only [finding, Model.locate_withWaivers]

theorem rule_ignoresWaivers : rule.IgnoresWaivers := by
  intro m ws settings
  have hfindingsFor : findingsFor (m.withWaivers ws) = findingsFor m := by
    funext limit s
    simp only [findingsFor, lockAround?, Model.lock?_withWaivers, finding_withWaivers]
  simp only [rule, hfindingsFor]
  rfl

end ShortReadWrite

namespace TimerLeak

theorem owner?_withWaivers : owner? (m.withWaivers ws) = owner? m := rfl

theorem ofPath_withWaivers : Exit.ofPath (m.withWaivers ws) = Exit.ofPath m := by
  funext f path
  simp only [Exit.ofPath, Model.locate_withWaivers]

theorem rule_ignoresWaivers : rule.IgnoresWaivers := by
  intro m ws settings
  have hfindingsFor : findingsFor (m.withWaivers ws) = findingsFor m := by
    funext limit t
    simp only [findingsFor, owner?_withWaivers, Model.unstoppedExitPaths_withWaivers,
      Model.locate_withWaivers, ofPath_withWaivers]
  simp only [rule, hfindingsFor]
  rfl

end TimerLeak

namespace StructuralEquality

theorem rule_ignoresWaivers : rule.IgnoresWaivers := by
  intro m ws settings
  have hfinding : finding (m.withWaivers ws) = finding m := by
    funext c
    simp only [finding, Model.locate_withWaivers]
  simp only [rule, hfinding]
  rfl

end StructuralEquality

namespace ElapsedSign

theorem rule_ignoresWaivers : rule.IgnoresWaivers := by
  intro m ws settings
  have hfinding : finding? (m.withWaivers ws) = finding? m := by
    funext e
    simp only [finding?, Model.instant?_withWaivers, Model.strippingTransformation_withWaivers,
      Model.derivationChain_withWaivers, Model.locate_withWaivers]
  simp only [rule, hfinding]
  rfl

end ElapsedSign

namespace MixedOrdering

theorem rule_ignoresWaivers : rule.IgnoresWaivers := by
  intro m ws settings
  have hfinding : finding? (m.withWaivers ws) = finding? m := by
    funext c
    simp only [finding?, Model.instant?_withWaivers, Model.locate_withWaivers]
  simp only [rule, hfinding]
  rfl

end MixedOrdering

end Waivers

theorem rules_ignoreWaivers [CharacterNames] {r : Rule} (h : r ∈ rules) : r.IgnoresWaivers := by
  simp only [rules, List.mem_cons, List.not_mem_nil, or_false] at h
  rcases h with rfl | rfl | rfl | rfl | rfl | rfl | rfl | rfl | rfl | rfl
  · exact HandlerSafety.rule_ignoresWaivers
  · exact UnguardedAccess.rule_ignoresWaivers
  · exact LeakedReference.rule_ignoresWaivers
  · exact LoadThenStore.rule_ignoresWaivers
  · exact ZeroCapacity.rule_ignoresWaivers
  · exact ShortReadWrite.rule_ignoresWaivers
  · exact TimerLeak.rule_ignoresWaivers
  · exact StructuralEquality.rule_ignoresWaivers
  · exact ElapsedSign.rule_ignoresWaivers
  · exact MixedOrdering.rule_ignoresWaivers

/-! ## The settings -/

/-- A rule of the table comes to the same with settings that have the same thresholds. -/
theorem evaluate_eq_of_thresholds_eq [CharacterNames] {r : Rule} (h : r ∈ rules) (m : Model)
    {s t : RuleSettings}
    (hthresholds : s.thresholds = t.thresholds) : r.evaluate m s = r.evaluate m t := by
  have hthreshold : s.threshold = t.threshold := by
    funext name
    rw [RuleSettings.threshold, RuleSettings.threshold, hthresholds]
  simp only [rules, List.mem_cons, List.not_mem_nil, or_false] at h
  rcases h with rfl | rfl | rfl | rfl | rfl | rfl | rfl | rfl | rfl | rfl
  · simp only [HandlerSafety.rule, hthreshold]
  · simp only [UnguardedAccess.rule, hthreshold]
  · rfl
  · simp only [LoadThenStore.rule, hthreshold]
  · rfl
  · simp only [ShortReadWrite.rule, hthreshold]
  · simp only [TimerLeak.rule, hthreshold]
  · rfl
  · rfl
  · rfl

end Hazard
