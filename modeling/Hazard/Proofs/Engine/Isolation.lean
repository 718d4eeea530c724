import Hazard.Proofs.Engine.Undisturbed
import Hazard.Proofs.Rule.Origin
import Mathlib.Data.List.Basic

set_option autoImplicit false

/-! # Failures stay where they are

A front-end can fail on a source and a rule can fail on a unit. Either failure costs what it would
have contributed, leaves one diagnostic in its place, and has no effect on anything else. To say so,
a run is compared with one in which nothing fails: it has only the units that there are facts about,
and each rule has no candidates where it failed (`Rule.silenced`). Without the diagnostics about
failures the first run reports the same as the second (`Analysis.Isolates`).

This takes apart what is found about each unit, rule by rule, and rests on the rules putting their
own ids on their candidates: a rule that poses as the engine could report failures that are none. -/

namespace Hazard

/-! ## What becomes of a source -/

namespace Ingestion

/-- The facts that the front-end has come to, if it has. -/
def model? (i : Ingestion) : Option Model :=
  match i.result with
  | .ok (.model m) => some m
  | _ => none

/-- Why there are no facts, if there are none: the front-end says so, or it has broken down. -/
def failure? (source : String) (i : Ingestion) : Option IngestFailure :=
  match i.result with
  | .ok (.model _) => none
  | .ok (.failure f) => some f
  | .error fault => some { unit := source, reason := s!"{fault.kind}: {fault.message}" }

/-- Either there are facts or there is a reason why not. -/
theorem settle_cases (source : String) (i : Ingestion) :
    (∃ m, i.settle source = .model m ∧ i.model? = some m ∧ i.failure? source = none) ∨
      ∃ f, i.settle source = .failure f ∧ i.model? = none ∧ i.failure? source = some f := by
  unfold settle model? failure?
  cases i.result with
  | error fault => exact Or.inr ⟨_, rfl, rfl, rfl⟩
  | ok ingested =>
      cases ingested with
      | model m => exact Or.inl ⟨m, rfl, rfl, rfl⟩
      | failure f => exact Or.inr ⟨f, rfl, rfl, rfl⟩

end Ingestion

/-! ## What becomes of a rule -/

/-- Whether a diagnostic says that a source or a rule has failed. -/
def Diagnostic.isAboutFailure (d : Diagnostic) : Bool :=
  d.rule == ingestRule || d.rule == internalRule

namespace Rule

/-- How a rule fails on a unit, if it does. -/
def fault? (r : Rule) (settings : RuleSettings) (m : Model) : Option Fault :=
  match r.evaluate m settings with
  | .ok _ => none
  | .error fault => some fault

/-- The rule that has no candidates where the given one fails. -/
def silenced (r : Rule) : Rule where
  toRuleInfo := r.toRuleInfo
  evaluate m settings :=
    match r.evaluate m settings with
    | .ok candidates => .ok candidates
    | .error _ => .ok []

theorem findings_silenced (r : Rule) (settings : RuleSettings) (m : Model) :
    r.silenced.findings settings m =
      match r.evaluate m settings with
      | .ok candidates => candidates.map (Diagnostic.ofCandidate m r.toRuleInfo settings)
      | .error _ => [] := by
  unfold findings
  simp only [silenced]
  cases r.evaluate m settings with
  | ok candidates => rfl
  | error fault => rfl

namespace NamesItself

variable {r : Rule} {settings : RuleSettings} (h : r.NamesItself settings) (m : Model)

include h

/-- Where a rule returns, its findings do not pass for diagnostics about the run. -/
theorem not_mem_runRules {candidates : List Candidate}
    (hevaluate : r.evaluate m settings = .ok candidates) {d : Diagnostic}
    (hd : d ∈ candidates.map (Diagnostic.ofCandidate m r.toRuleInfo settings)) :
    d.rule ∉ runRules := by
  obtain ⟨c, hc, rfl⟩ := List.mem_map.mp hd
  have hrule : c.rule = r.id := h.candidates m candidates hevaluate c hc
  exact fun hmem => h.id (hrule ▸ hmem)

theorem filter_ingest_findings : (r.findings settings m).filter (·.rule == ingestRule) = [] := by
  unfold findings
  cases hevaluate : r.evaluate m settings with
  | error fault => rfl
  | ok candidates =>
      refine List.filter_eq_nil_iff.mpr fun d hd hrule => h.not_mem_runRules m hevaluate hd ?_
      rw [beq_iff_eq.mp hrule]
      decide

theorem filter_internal_findings :
    (r.findings settings m).filter (·.rule == internalRule)
      = ((r.fault? settings m).map (Diagnostic.ruleFailed m.unit r.id)).toList := by
  unfold findings fault?
  cases hevaluate : r.evaluate m settings with
  | error fault => rfl
  | ok candidates =>
      refine List.filter_eq_nil_iff.mpr fun d hd hrule => h.not_mem_runRules m hevaluate hd ?_
      rw [beq_iff_eq.mp hrule]
      decide

theorem filter_other_findings :
    (r.findings settings m).filter (!·.isAboutFailure) = r.silenced.findings settings m := by
  rw [findings_silenced]
  unfold findings
  cases hevaluate : r.evaluate m settings with
  | error fault => rfl
  | ok candidates =>
      refine List.filter_eq_self.mpr fun d hd => ?_
      have hrule := h.not_mem_runRules m hevaluate hd
      simp only [runRules, List.mem_cons, not_or] at hrule
      simp [Diagnostic.isAboutFailure, hrule.1, hrule.2.1]

end NamesItself

end Rule

/-- The rules, none of which fails. -/
def RuleList.silenced (rules : RuleList) : RuleList := rules.map fun r => (r.1.silenced, r.2)

/-- The diagnostics about the rules that fail on a unit, one for each. -/
def Diagnostic.rulesFailed (rules : RuleList) (m : Model) : List Diagnostic :=
  rules.filterMap fun r => (r.1.fault? r.2 m).map (Diagnostic.ruleFailed m.unit r.1.id)

/-! ## What becomes of a unit -/

section Unit

variable {rules : RuleList} (hrules : ∀ r ∈ rules, r.1.NamesItself r.2)

include hrules

theorem filter_ingest_findings_settle (source : String) (i : Ingestion) :
    ((i.settle source).findings rules).filter (·.rule == ingestRule)
      = (i.failure? source).toList.map Diagnostic.notIngested := by
  rcases i.settle_cases source with ⟨m, hsettle, _, hfailure⟩ | ⟨f, hsettle, _, hfailure⟩
  · rw [hsettle, hfailure]
    simp only [Ingested.findings, List.filter_flatMap]
    exact List.flatMap_eq_nil_iff.mpr fun r hr => (hrules r hr).filter_ingest_findings m
  · rw [hsettle, hfailure]
    rfl

theorem filter_internal_findings_settle (source : String) (i : Ingestion) :
    ((i.settle source).findings rules).filter (·.rule == internalRule)
      = i.model?.toList.flatMap (Diagnostic.rulesFailed rules) := by
  rcases i.settle_cases source with ⟨m, hsettle, hmodel, _⟩ | ⟨f, hsettle, hmodel, _⟩
  · rw [hsettle, hmodel]
    simp only [Ingested.findings, List.filter_flatMap, Option.toList_some, List.flatMap_singleton,
      Diagnostic.rulesFailed, List.filterMap_eq_flatMap_toList]
    exact List.flatMap_congr fun r hr => (hrules r hr).filter_internal_findings m
  · rw [hsettle, hmodel]
    rfl

theorem filter_other_findings_settle (source : String) (i : Ingestion) :
    ((i.settle source).findings rules).filter (!·.isAboutFailure)
      = i.model?.toList.flatMap fun m => (Ingested.model m).findings rules.silenced := by
  rcases i.settle_cases source with ⟨m, hsettle, hmodel, _⟩ | ⟨f, hsettle, hmodel, _⟩
  · rw [hsettle, hmodel]
    simp only [Ingested.findings, List.filter_flatMap, Option.toList_some, List.flatMap_singleton,
      RuleList.silenced, List.flatMap_map]
    exact List.flatMap_congr fun r hr => (hrules r hr).filter_other_findings m
  · rw [hsettle, hmodel]
    rfl

end Unit

/-! ## What becomes of a run -/

namespace Analysis

/-- What comes of the sources, with a breakdown taken for a failure. -/
def settled (sources : List (String × Ingestion)) : List Ingested :=
  sources.map fun (source, i) => i.settle source

/-- The units that there are facts about. -/
def built (sources : List (String × Ingestion)) : List Model :=
  sources.filterMap fun (_, i) => i.model?

/-- Why there are no facts about the other sources. -/
def unbuilt (sources : List (String × Ingestion)) : List IngestFailure :=
  sources.filterMap fun (source, i) => i.failure? source

/-- The failures of sources and rules show in a report, and only where they are. -/
structure Isolates (settings : EngineSettings) (rules : RuleList)
    (sources : List (String × Ingestion)) (a : Analysis) : Prop where
  /-- There is one diagnostic for each source without facts. -/
  ingest : (a.diagnostics.filter (·.rule == ingestRule)).Perm
    ((unbuilt sources).map Diagnostic.notIngested)
  /-- There is one for each rule that fails on a unit, and each unit that it fails on. -/
  internal : (a.diagnostics.filter (·.rule == internalRule)).Perm
    ((built sources).flatMap (Diagnostic.rulesFailed rules))
  /-- The others are what is reported if nothing fails. -/
  others : ∀ r, Undisturbed settings rules.silenced ((built sources).map .model) r →
    ∃ b, r = .ok b ∧ a.diagnostics.filter (!·.isAboutFailure) = b.diagnostics

section Run

variable {settings : EngineSettings} {rules : RuleList}
  (hrules : ∀ r ∈ rules, r.1.NamesItself r.2) (sources : List (String × Ingestion))

/-- A part of what is found in the sources is the same part of what is found in each of them. -/
theorem filter_findings_settled (p : Diagnostic → Bool) {f : String × Ingestion → List Diagnostic}
    (hf : ∀ source i, ((i.settle source).findings rules).filter p = f (source, i)) :
    ((settled sources).flatMap (·.findings rules)).filter p = sources.flatMap f := by
  rw [settled, List.filter_flatMap, List.flatMap_map]
  exact List.flatMap_congr fun x _ => hf x.1 x.2

include hrules

theorem filter_ingest_settled :
    ((settled sources).flatMap (·.findings rules)).filter (·.rule == ingestRule)
      = (unbuilt sources).map Diagnostic.notIngested := by
  rw [unbuilt, List.filterMap_eq_flatMap_toList, List.map_flatMap]
  exact filter_findings_settled sources _ (filter_ingest_findings_settle hrules)

theorem filter_internal_settled :
    ((settled sources).flatMap (·.findings rules)).filter (·.rule == internalRule)
      = (built sources).flatMap (Diagnostic.rulesFailed rules) := by
  rw [built, List.filterMap_eq_flatMap_toList, List.flatMap_assoc]
  exact filter_findings_settled sources _ (filter_internal_findings_settle hrules)

theorem filter_other_settled :
    ((settled sources).flatMap (·.findings rules)).filter (!·.isAboutFailure)
      = ((built sources).map Ingested.model).flatMap (·.findings rules.silenced) := by
  rw [built, List.flatMap_map, List.filterMap_eq_flatMap_toList, List.flatMap_assoc]
  exact filter_findings_settled sources _ (filter_other_findings_settle hrules)

theorem Reports.isolates (hsettings : settings.unitTimeout = none) {a : Analysis}
    (ha : a.Reports settings rules (settled sources)) : a.Isolates settings rules sources where
  ingest := by
    rw [ha.diagnostics, Diagnostic.filter_sorted, filter_ingest_settled hrules]
    exact Diagnostic.sorted_perm _
  internal := by
    rw [ha.diagnostics, Diagnostic.filter_sorted, filter_internal_settled hrules]
    exact Diagnostic.sorted_perm _
  others r hr := by
    obtain ⟨b, rfl, hb⟩ := hr.exists_reports hsettings
    refine ⟨b, rfl, ?_⟩
    rw [ha.diagnostics, hb.diagnostics, Diagnostic.filter_sorted, filter_other_settled hrules]

end Run

/-- **Failures are isolated.** Whatever the front-end does with each source and whichever rules fail
    on which units, a run that nothing interferes with has a result, in a row or side by side. It
    has one diagnostic for each source without facts and one for each rule and unit on which it
    fails, and the others are those of a run over the units with facts in which no rule fails. -/
theorem ofSources_isolates (settings : EngineSettings) (hsettings : settings.unitTimeout = none)
    (rules : RuleList) (hrules : ∀ r ∈ rules, r.1.NamesItself r.2)
    (sources : List (String × Ingestion)) :
    (∀ s : Schedule, s.Undisturbed →
      ∃ a, ofSources settings rules s sources = .ok a ∧ a.Isolates settings rules sources) ∧
    ∀ shares : List (Schedule × Ingested), shares.map (·.2) = settled sources →
      (∀ share ∈ shares, share.1.Undisturbed) →
      ∃ a, ofPass settings (Pass.ofShares settings.unitTimeout rules shares) = .ok a ∧
        a.Isolates settings rules sources := by
  constructor
  · intro s hs
    have hrun : Undisturbed settings rules (settled sources)
      (ofUnits settings rules s (settled sources)) := .inRow s hs
    obtain ⟨a, ha, hreports⟩ := hrun.exists_reports hsettings
    have hsources : ofSources settings rules s sources
        = .ok { a with notices := ingestNotices sources ++ a.notices } := by
      unfold settled at ha
      rw [ofSources, ha]
      rfl
    exact ⟨_, hsources, Reports.isolates hrules sources hsettings
      ⟨hreports.diagnostics, hreports.outcome⟩⟩
  · intro shares hshares hs
    obtain ⟨a, ha, hreports⟩ :=
      (Undisturbed.sideBySide shares hshares hs).exists_reports hsettings
    exact ⟨a, ha, hreports.isolates hrules sources hsettings⟩

open scoped CharacterNames

/-- A rule that always fails, before one about channels that hold nothing. -/
def flakyRules : RuleList :=
  ({ id := "X.1", title := "", severity := "low", confidence := "low", fix := ""
     evaluate := fun _ _ => .error (.bare "RuntimeError") }, { rule := "X.1" }) :: pipeRules

/-- A source that the front-end breaks down on, one that it cannot read, and one with such a
    channel. -/
def flakySources : List (String × Ingestion) :=
  [("crash", .broken (.bare "RuntimeError")),
   ("unread", .done (.failure { unit := "unread", reason := "no facts" })),
   ("pipe", .done (.model pipe))]

theorem flakyRules_nameThemselves : ∀ r ∈ flakyRules, r.1.NamesItself r.2 := by
  intro r hr
  rcases List.mem_cons.mp hr with rfl | hr
  · exact ⟨by decide, fun m candidates h => nomatch h⟩
  · obtain rfl := List.mem_singleton.mp hr
    exact rules_nameThemselves (by simp [Hazard.rules]) _

/-- All three failures are reported, and the channel is still found. -/
theorem ofSources_isolates_flaky :
    ∃ a, ofSources {} flakyRules .still flakySources = .ok a ∧
      (a.diagnostics.filter (·.rule == ingestRule)).length = 2 ∧
      (a.diagnostics.filter (·.rule == internalRule)).length = 1 ∧
      ∃ b, ofUnits {} (RuleList.silenced flakyRules) .still ((built flakySources).map .model)
          = .ok b ∧
        a.diagnostics.filter (!·.isAboutFailure) = b.diagnostics := by
  obtain ⟨a, ha, hisolates⟩ := (ofSources_isolates {} rfl flakyRules flakyRules_nameThemselves
    flakySources).1 .still Schedule.still_undisturbed
  exact ⟨a, ha, hisolates.ingest.length_eq, hisolates.internal.length_eq,
    hisolates.others _ (.inRow .still Schedule.still_undisturbed)⟩

end Analysis

end Hazard
