import Hazard.Proofs.Engine.Isolation
import Hazard.Proofs.Engine.Verdict
import Hazard.Proofs.Rule.Returns

set_option autoImplicit false

/-! # Runs in which no rule fails

A diagnostic under `internalRule` says that a rule has failed. What a configuration lets through is
what the rules can use, so a configuration that is accepted never leads to one: neither does the
unit, whatever it holds, nor the course of the run. -/

namespace Hazard

/-- A rule that returns does not report that it has failed. -/
theorem Rule.rule_ne_internalRule [CharacterNames] {r : Rule} (hr : r ∈ rules)
    {settings : RuleSettings} {m : Model}
    (hreturns : ∃ candidates, r.evaluate m settings = .ok candidates) {d : Diagnostic}
    (hd : d ∈ r.findings settings m) : d.rule ≠ internalRule := by
  obtain ⟨candidates, hcandidates⟩ := hreturns
  simp only [findings, hcandidates] at hd
  intro hinternal
  apply (rules_nameThemselves hr settings).not_mem_runRules m hcandidates hd
  rw [hinternal]
  decide

namespace Pass

variable {s : Schedule} {budget : Option Float} {rules : RuleList}

/-- No unit gets a diagnostic about a failed rule if the rules return on all units. -/
theorem rule_ne_internalRule_of_mem_ofUnits [CharacterNames]
    (hrules : ∀ r ∈ rules, r.1 ∈ Hazard.rules) {units : List Ingested}
    (hreturns : ∀ r ∈ rules, ∀ m, .model m ∈ units →
      ∃ candidates, r.1.evaluate m r.2 = .ok candidates)
    {n : Nat} {d : Diagnostic} (hd : d ∈ (ofUnits s budget rules units n).diagnostics) :
    d.rule ≠ internalRule := by
  obtain ⟨u, hu, ⟨m, rfl, r, hr, hfound⟩ | ⟨_, hrun⟩⟩ := reports_of_mem_ofUnits hd
  · exact Rule.rule_ne_internalRule (hrules r hr) (hreturns r hr m hu) hfound
  · intro hinternal
    rw [hinternal] at hrun
    exact absurd hrun (by decide)

end Pass

namespace Analysis

theorem mem_diagnostics_of_ofPass {settings : EngineSettings} {p : Pass} {a : Analysis}
    (h : ofPass settings p = .ok a) {d : Diagnostic} (hd : d ∈ a.diagnostics) :
    d ∈ p.diagnostics := by
  unfold ofPass at h
  split at h
  · exact absurd h (throw_ne_ok _ _)
  · obtain rfl := (pure_eq_ok_iff _ _).mp h
    exact List.mem_mergeSort.mp hd

/-- **An accepted configuration never makes a rule fail.** Every rule that it enables returns on
    every unit whose numbers can be written. The one block that a rule looks up without asking
    whether it is there, the last one of a path on which a timer is left running, is a block of the
    function. So whatever the units are and whatever happens during the run, and also with workers,
    there is no diagnostic about a rule that has failed. -/
theorem accepted_never_fails [CharacterNames] {v : Value} {c : Config}
    (h : Config.ofValue v = .ok c) :
    ∃ rules, c.catalog.enabled = .ok rules ∧
      (∀ r ∈ rules, ∀ m : Model, m.Writable →
        ∃ candidates, r.1.evaluate m r.2 = .ok candidates) ∧
      (∀ (m : Model) (t : Timer) (f : Function), m.function? t.function = some f →
        ∀ path ∈ m.unstoppedExitPaths t, ∃ n, path.getLast? = some n ∧
          ∃ b ∈ f.graph.blocks, f.graph.block? n = some b) ∧
      (∀ (s : Schedule) (units : List Ingested), (∀ m, .model m ∈ units → m.Writable) →
        (s.Measurable → ∃ a, ofUnits c.engine rules s units = .ok a) ∧
        ∀ a, ofUnits c.engine rules s units = .ok a →
          ∀ d ∈ a.diagnostics, d.rule ≠ internalRule) ∧
      ∀ (deadline : Option Number) (shares : List (Schedule × Ingested)),
        (∀ share ∈ shares, share.1.deadline = deadline) →
        (∀ m, .model m ∈ shares.map (·.2) → m.Writable) →
        ((∀ share ∈ shares, share.1.Measurable) →
          ∃ a, ofPass c.engine (Pass.ofShares c.engine.unitTimeout rules shares) = .ok a) ∧
        ∀ a, ofPass c.engine (Pass.ofShares c.engine.unitTimeout rules shares) = .ok a →
          ∀ d ∈ a.diagnostics, d.rule ≠ internalRule := by
  obtain ⟨rules, henabled⟩ := (Config.catalog_full_of_ofValue h).exists_enabled
  have hrules (r : Rule × RuleSettings) (hr : r ∈ rules) :
      r.1 ∈ Hazard.rules ∧ r.1.toRuleInfo.Admits r.2.thresholds :=
    (Config.catalog_admissible_of_ofValue h).admits_of_enabled henabled hr
  have hreturns : ∀ r ∈ rules, ∀ m : Model, m.Writable →
      ∃ candidates, r.1.evaluate m r.2 = .ok candidates := fun r hr m hm =>
    rules_return (hrules r hr).1 m r.2 hm (hrules r hr).2
  have hquiet (s : Schedule) (units : List Ingested) (hunits : ∀ m, .model m ∈ units → m.Writable)
      (d : Diagnostic) (hd : d ∈ (Pass.ofUnits s c.engine.unitTimeout rules units 0).diagnostics) :
      d.rule ≠ internalRule :=
    Pass.rule_ne_internalRule_of_mem_ofUnits (fun r hr => (hrules r hr).1)
      (fun r hr m hm => hreturns r hr m (hunits m hm)) hd
  refine ⟨rules, henabled, hreturns, ?_, ?_, ?_⟩
  · exact fun m t f hf path hpath => TimerLeak.block_of_mem_unstoppedExitPaths hf hpath
  · intro s units hunits
    refine ⟨fun hclock => exists_ofPass (Pass.ofUnits_halt_eq_none hclock _ rules units 0), ?_⟩
    exact fun a ha d hd => hquiet s units hunits d (mem_diagnostics_of_ofPass ha hd)
  · intro deadline shares hdeadline hunits
    refine ⟨fun hclocks => exists_ofPass (Pass.ofShares_halt_eq_none _ rules shares hclocks), ?_⟩
    intro a ha d hd
    -- The workers report what is reported in a row under some schedule.
    obtain ⟨s, _, hserial⟩ :=
      Pass.exists_serial c.engine.unitTimeout rules deadline shares hdeadline
    refine hquiet s _ hunits d ?_
    rw [hserial]
    exact mem_diagnostics_of_ofPass ha hd

open scoped CharacterNames

/-- Thresholds at the ends of what is admitted, and a pattern of the user's own. -/
def narrowThresholds : Value :=
  .record [("rules", .record [
    ("RC.1", .record [("thresholds", .record [
      ("handler_patterns", .texts ["(?i)^on_(get|post)$"])])]),
    ("RC.2", .record [("thresholds", .record [("min_tasks", .int 1000)])]),
    ("Tm.1", .record [("thresholds", .record [("max_reported_paths", .int 1)])])])]

/-- A unit that contradicts itself. Two functions have one name, edges lead nowhere, a timer is
    created in a loop with two ways out, and a map and a comparison name what does not exist. -/
def inconsistent : Model where
  unit := "u.go"
  functions := [
    { name := "serve"
      graph := {
        blocks := #[{ number := 7, successors := [1, 2, 9] },
          { number := 0, exit := some .raising, location := some ⟨"u.go", 4, 0⟩ },
          { number := 2, successors := [0, -1], exit := some .returning }]
        entry := -3 } },
    { name := "serve" }]
  timers := [
    { name := "tick", function := "serve", stopBlocks := [12] }, { name := "t", function := "?" }]
  maps := [{ name := "cache", operations := [{ action := .store, key := "k", function := "?" }] }]
  comparisons := [{ operator := .before, left := "a", right := "b", targetsPersisted := true }]

theorem inconsistent_writable : inconsistent.Writable where
  operations := by decide
  functions := by decide
  blocks := by decide
  counts := by decide
  sizes := by decide

theorem accepted_never_fails_inconsistent :
    ∃ c rules, Config.ofValue narrowThresholds = .ok c ∧ c.catalog.enabled = .ok rules ∧
      (∀ r ∈ rules, ∃ candidates, r.1.evaluate inconsistent r.2 = .ok candidates) ∧
      inconsistent.unstoppedExitPaths { name := "tick", function := "serve", stopBlocks := [12] }
        = [[0, 1], [0, 2]] ∧
      ∃ a, ofUnits c.engine rules .still [.model inconsistent] = .ok a ∧
        ∀ d ∈ a.diagnostics, d.rule ≠ internalRule := by
  have haccepted : (Config.ofValue narrowThresholds).isOk = true := by decide +kernel
  cases hc : Config.ofValue narrowThresholds with
  | error e => simp [hc, Except.isOk, Except.toBool] at haccepted
  | ok c =>
      obtain ⟨rules, henabled, hreturns, _, hruns, _⟩ := accepted_never_fails hc
      obtain ⟨hresult, hquiet⟩ := hruns .still [.model inconsistent] fun m hm => by
        obtain rfl := Ingested.model.inj (List.mem_singleton.mp hm)
        exact inconsistent_writable
      obtain ⟨a, ha⟩ := hresult (Schedule.measurable_of_int _ fun n => ⟨0, rfl⟩)
      exact ⟨c, rules, rfl, henabled, fun r hr => hreturns r hr inconsistent inconsistent_writable,
        by decide, a, ha, hquiet a ha⟩

end Analysis

end Hazard
