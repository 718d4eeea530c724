import Hazard.Engine.Analysis
import Hazard.Proofs.Config.Enabled
import Hazard.Proofs.Engine.Workers

set_option autoImplicit false

/-! # What a clean outcome means

The outcome of a run is read off its diagnostics alone, and work that is left out shows in it only
if it leaves a diagnostic that no waiver can hide. There are five ways to leave out work: a unit is
not ingested, a rule fails, the run is called off, its deadline passes, or a unit takes too long.
Each of them leaves a diagnostic about the run, such a diagnostic is never suppressed, and no
finding of a rule can be taken for one. So a clean outcome says that all the work has been done and
that whatever has been found is accepted. This holds of units in a row, and by `Pass.exists_serial`
also of workers that share the clock (`Analysis.ofShares_clean_iff`). -/

namespace Hazard

/-! ## The outcome of some diagnostics -/

/-- A diagnostic that is not hidden if it is about the run. -/
def Diagnostic.NotHidden (d : Diagnostic) : Prop := d.isAboutRun = true → d.suppressed = false

theorem Outcome.of_eq_clean_iff (partialResults : Bool) {ds : List Diagnostic}
    (h : ∀ d ∈ ds, d.NotHidden) :
    Outcome.of partialResults ds = .clean ↔ ∀ d ∈ ds, d.suppressed = true := by
  unfold Outcome.of
  constructor
  · intro hclean d hd
    split at hclean
    · simp at hclean
    · split at hclean
      · simp at hclean
      · next hopen =>
          rw [List.any_eq_true] at hopen
          cases hd' : d.suppressed with
          | true => rfl
          | false => exact absurd ⟨d, hd, by simp [hd']⟩ hopen
  · intro hall
    -- What is about the run would be open, so there is nothing about the run.
    have hrun : ds.any (·.isAboutRun) = false := by
      rw [List.any_eq_false]
      intro d hd hrun
      have hopen := h d hd hrun
      rw [hall d hd] at hopen
      simp at hopen
    have hopen : ds.any (!·.suppressed) = false := by
      rw [List.any_eq_false]
      intro d hd
      simp [hall d hd]
    rw [hrun, hopen]
    simp

/-! ## The findings of a rule -/

namespace Rule

/-- No finding of a rule of the table passes for a diagnostic about the run. -/
theorem notHidden_of_mem_findings [CharacterNames] {r : Rule} (hr : r ∈ rules)
    {settings : RuleSettings} {m : Model}
    {d : Diagnostic} (hd : d ∈ r.findings settings m) : d.NotHidden := by
  intro hrun
  unfold findings at hd
  split at hd
  · next candidates hcandidates =>
      obtain ⟨c, hc, rfl⟩ := List.mem_map.mp hd
      have hrule : c.rule = r.id :=
        (rules_reportOwn hr m settings candidates hcandidates c hc).rule_eq
      have hmem : c.rule ∈ runRules := List.contains_iff_mem.mp hrun
      rw [hrule] at hmem
      exact absurd hmem (id_not_mem_runRules hr)
  · obtain rfl := List.mem_singleton.mp hd
    rfl

/-- The findings are all accepted if and only if the rule returns and each of its candidates has a
    waiver. -/
theorem findings_suppressed_iff (r : Rule) (settings : RuleSettings) (m : Model) :
    (∀ d ∈ r.findings settings m, d.suppressed = true) ↔
      ∃ candidates, r.evaluate m settings = .ok candidates ∧
        ∀ c ∈ candidates, (c.waiver? r.markers m.waivers).isSome = true := by
  unfold findings
  cases hevaluate : r.evaluate m settings with
  | ok candidates =>
      constructor
      · intro h
        exact ⟨candidates, rfl, fun c hc => h _ (List.mem_map_of_mem hc)⟩
      · rintro ⟨candidates', heq, h⟩ d hd
        obtain rfl := Except.ok.inj heq
        obtain ⟨c, hc, rfl⟩ := List.mem_map.mp hd
        exact h c hc
  | error fault =>
      constructor
      · intro h
        exact absurd (h _ (List.mem_singleton.mpr rfl)) Bool.false_ne_true
      · rintro ⟨candidates, heq, _⟩
        simp at heq

end Rule

/-! ## The analysis of a unit -/

/-- Rule `i` is evaluated in a unit that is begun after `n` readings: the turns before it pass
    without an event, and the test before it does not stop. -/
def Schedule.Reaches (s : Schedule) (budget : Option Float) (n i : Nat) : Prop :=
  (∀ j < i, s.Passes budget n j) ∧ ¬ s.StopsBefore n i

namespace Pass

/-- The pass comes to its end, and all that it has found is accepted. -/
def Quiet (p : Pass) : Prop := p.halt = none ∧ ∀ d ∈ p.diagnostics, d.suppressed = true

variable (s : Schedule) (budget : Option Float) (rules : RuleList)

/-- The analysis of a unit that is begun after `n` readings leaves nothing out and nothing open. -/
structure Complete (n : Nat) (m : Model) : Prop where
  /-- Every rule is evaluated. -/
  evaluated : ∀ i < rules.length, s.Reaches budget n i
  /-- No rule fails. -/
  returned : ∀ r ∈ rules, ∃ candidates, r.1.evaluate m r.2 = .ok candidates
  /-- The unit is never beyond its time limit. -/
  inTime : ∀ i < rules.length, s.InTimeAfter budget n i
  /-- Every candidate has a waiver. -/
  accepted : ∀ r ∈ rules, ∀ candidates, r.1.evaluate m r.2 = .ok candidates →
    ∀ c ∈ candidates, (c.waiver? r.1.markers m.waivers).isSome = true

variable {s budget rules}

theorem afterAll_suppressed_iff (m : Model) (rules : RuleList) (p : Pass) :
    (∀ d ∈ (afterAll m rules p).diagnostics, d.suppressed = true) ↔
      (∀ r ∈ rules, ∀ d ∈ r.1.findings r.2 m, d.suppressed = true) ∧
        ∀ d ∈ p.diagnostics, d.suppressed = true := by
  simp only [afterAll_diagnostics, List.mem_append, List.mem_flatMap]
  constructor
  · intro h
    exact ⟨fun r hr d hd => h d (Or.inl ⟨r, hr, hd⟩), fun d hd => h d (Or.inr hd)⟩
  · rintro ⟨hrules, hp⟩ d (⟨r, hr, hd⟩ | hd)
    · exact hrules r hr d hd
    · exact hp d hd

/-- A diagnostic at the end that is not suppressed keeps a pass from being quiet. -/
theorem not_quiet_afterAll {m : Model} {p : Pass} {d : Diagnostic} (hd : d ∈ p.diagnostics)
    (hopen : d.suppressed = false) : ¬ (afterAll m rules p).Quiet := by
  rintro ⟨_, h⟩
  have hd' := ((afterAll_suppressed_iff m rules p).mp h).2 d hd
  rw [hopen] at hd'
  simp at hd'

theorem not_quiet_of_halt {p : Pass} {o : Overflow} (h : p.halt = some o) : ¬ p.Quiet := by
  rintro ⟨hnone, _⟩
  rw [h] at hnone
  simp at hnone

/-- A unit is quiet if and only if its analysis is complete. -/
theorem ofUnit_model_quiet_iff (s : Schedule) (budget : Option Float) (rules : RuleList) (n : Nat)
    (m : Model) : (ofUnit s budget rules n (.model m)).Quiet ↔ Complete s budget rules n m := by
  have hcourse := ofUnit_course s budget rules n m
  generalize ofUnit s budget rules n (.model m) = p at hcourse ⊢
  cases hcourse with
  | complete hall =>
      -- All rules have been run in time, so that it depends on their findings alone.
      constructor
      · rintro ⟨_, hquiet⟩
        have hrules := ((afterAll_suppressed_iff m rules _).mp hquiet).1
        refine ⟨?_, ?_, fun i hi => (hall i hi).2, ?_⟩
        · exact fun i hi => ⟨fun j hj => hall j (Nat.lt_trans hj hi), (hall i hi).1⟩
        · intro r hr
          obtain ⟨candidates, heq, _⟩ := (r.1.findings_suppressed_iff r.2 m).mp (hrules r hr)
          exact ⟨candidates, heq⟩
        · intro r hr candidates heq
          obtain ⟨candidates', heq', h⟩ := (r.1.findings_suppressed_iff r.2 m).mp (hrules r hr)
          rw [heq'] at heq
          obtain rfl := Except.ok.inj heq
          exact h
      · intro hcomplete
        refine ⟨by rw [afterAll_halt], (afterAll_suppressed_iff m rules _).mpr ⟨?_, by simp⟩⟩
        intro r hr
        obtain ⟨candidates, heq⟩ := hcomplete.returned r hr
        exact (r.1.findings_suppressed_iff r.2 m).mpr
          ⟨candidates, heq, hcomplete.accepted r hr candidates heq⟩
  | calledOff k c hk h =>
      -- This event and the next leave a diagnostic for which no waiver is looked up.
      refine iff_of_false (not_quiet_afterAll (List.mem_singleton.mpr rfl) rfl) ?_
      intro hcomplete
      exact (hcomplete.evaluated k hk).2 h.2
  | overran k c limit elapsed hk h hlimit helapsed =>
      refine iff_of_false (not_quiet_afterAll (List.mem_singleton.mpr rfl) rfl) ?_
      intro hcomplete
      exact (hcomplete.inTime k hk).not_overrunsAfter h.2.2
  | halted k c o hk before h =>
      refine iff_of_false (not_quiet_of_halt (afterAll_halt m _ _)) ?_
      intro hcomplete
      exact (hcomplete.inTime k hk).not_losesTrackAfter h

theorem ofUnit_failure_not_quiet (s : Schedule) (budget : Option Float) (rules : RuleList) (n : Nat)
    (f : IngestFailure) : ¬ (ofUnit s budget rules n (.failure f)).Quiet := by
  rintro ⟨_, h⟩
  exact absurd (h _ (List.mem_singleton.mpr rfl)) Bool.false_ne_true

theorem ofUnit_quiet_iff (s : Schedule) (budget : Option Float) (rules : RuleList) (n : Nat)
    (u : Ingested) :
    (ofUnit s budget rules n u).Quiet ↔ ∃ m, u = .model m ∧ Complete s budget rules n m := by
  cases u with
  | failure f =>
      refine iff_of_false (ofUnit_failure_not_quiet s budget rules n f) ?_
      rintro ⟨m, hm, _⟩
      simp at hm
  | model m =>
      rw [ofUnit_model_quiet_iff]
      constructor
      · exact fun h => ⟨m, rfl, h⟩
      · rintro ⟨m', hm, h⟩
        obtain rfl := Ingested.model.inj hm
        exact h

/-- What the analysis of a unit can report: a finding of one of the rules, or an open diagnostic
    that says why rules have not been run. -/
def Reports (rules : RuleList) (u : Ingested) (d : Diagnostic) : Prop :=
  (∃ m, u = .model m ∧ ∃ r ∈ rules, d ∈ r.1.findings r.2 m)
    ∨ d.suppressed = false ∧ d.rule ∈ [ingestRule, timeoutRule, partialRule]

theorem reports_of_mem_afterAll {m : Model} {ran : RuleList} (hran : ∀ r ∈ ran, r ∈ rules)
    {p : Pass} (htail : ∀ d ∈ p.diagnostics,
      d.suppressed = false ∧ d.rule ∈ [ingestRule, timeoutRule, partialRule])
    {d : Diagnostic} (hd : d ∈ (afterAll m ran p).diagnostics) : Reports rules (.model m) d := by
  rw [afterAll_diagnostics] at hd
  rcases List.mem_append.mp hd with hd | hd
  · obtain ⟨r, hr, hd⟩ := List.mem_flatMap.mp hd
    exact .inl ⟨m, rfl, r, hran r hr, hd⟩
  · exact .inr (htail d hd)

theorem reports_of_mem_ofUnit {n : Nat} {u : Ingested} {d : Diagnostic}
    (hd : d ∈ (ofUnit s budget rules n u).diagnostics) : Reports rules u d := by
  have htake (k : Nat) : ∀ r ∈ rules.take k, r ∈ rules := fun r hr => List.mem_of_mem_take hr
  cases u with
  | failure f =>
      obtain rfl := List.mem_singleton.mp hd
      exact .inr ⟨rfl, List.mem_cons_self⟩
  | model m =>
      have hcourse := ofUnit_course s budget rules n m
      generalize ofUnit s budget rules n (.model m) = p at hcourse hd
      cases hcourse with
      | complete hall => exact reports_of_mem_afterAll (fun r hr => hr) (by simp) hd
      | calledOff k c hk h =>
          refine reports_of_mem_afterAll (htake k) (fun d hd => ?_) hd
          obtain rfl := List.mem_singleton.mp hd
          exact ⟨rfl, List.mem_cons_of_mem _ (List.mem_cons_of_mem _ List.mem_cons_self)⟩
      | overran k c limit elapsed hk h hlimit helapsed =>
          refine reports_of_mem_afterAll (htake (k + 1)) (fun d hd => ?_) hd
          obtain rfl := List.mem_singleton.mp hd
          exact ⟨rfl, List.mem_cons_of_mem _ List.mem_cons_self⟩
      | halted k c o hk before h =>
          exact reports_of_mem_afterAll (htake (k + 1)) (by simp [halted]) hd

/-! ## The analyses of several units -/

variable (s budget rules)

/-- The units, each with the number of readings after which its analysis is begun. -/
def begun : List Ingested → Nat → List (Nat × Ingested)
  | [], _ => []
  | u :: rest, n => (n, u) :: begun rest (ofUnit s budget rules n u).readings

variable {s budget rules}

theorem append_quiet_iff (p q : Pass) (hp : p.halt = none) :
    (p.append q).Quiet ↔ p.Quiet ∧ q.Quiet := by
  unfold Quiet append
  simp only [List.mem_append]
  constructor
  · rintro ⟨hq, h⟩
    exact ⟨⟨hp, fun d hd => h d (Or.inl hd)⟩, hq, fun d hd => h d (Or.inr hd)⟩
  · rintro ⟨⟨_, h⟩, hq, h'⟩
    exact ⟨hq, fun d hd => hd.elim (h d) (h' d)⟩

theorem ofUnits_quiet_iff (s : Schedule) (budget : Option Float) (rules : RuleList)
    (units : List Ingested) (n : Nat) :
    (ofUnits s budget rules units n).Quiet ↔
      ∀ b ∈ begun s budget rules units n, (ofUnit s budget rules b.1 b.2).Quiet := by
  induction units generalizing n with
  | nil => simp [ofUnits, begun, Quiet]
  | cons u rest ih =>
      rw [begun, List.forall_mem_cons]
      cases hhalt : (ofUnit s budget rules n u).halt with
      | none => rw [ofUnits_cons_of_go hhalt, append_quiet_iff _ _ hhalt, ih]
      | some o =>
          rw [ofUnits_cons_of_halt hhalt]
          exact iff_of_false (not_quiet_of_halt hhalt) fun h => not_quiet_of_halt hhalt h.1

theorem ofShares_quiet_iff (budget : Option Float) (rules : RuleList)
    (shares : List (Schedule × Ingested)) :
    (ofShares budget rules shares).Quiet ↔
      ∀ share ∈ shares, (ofUnit share.1 budget rules 0 share.2).Quiet := by
  induction shares with
  | nil => simp [ofShares, Quiet]
  | cons share rest ih =>
      rw [ofShares, List.forall_mem_cons, ← ih]
      split
      · next hhalt =>
          obtain ⟨o, ho⟩ := Option.isSome_iff_exists.mp hhalt
          exact iff_of_false (not_quiet_of_halt ho) fun h => not_quiet_of_halt ho h.1
      · next hhalt => exact append_quiet_iff _ _ (by simpa using hhalt)

theorem reports_of_mem_ofUnits {units : List Ingested} {n : Nat} {d : Diagnostic}
    (hd : d ∈ (ofUnits s budget rules units n).diagnostics) : ∃ u ∈ units, Reports rules u d := by
  induction units generalizing n with
  | nil => simp [ofUnits] at hd
  | cons u rest ih =>
      rw [ofUnits] at hd
      split at hd
      · exact ⟨u, List.mem_cons_self, reports_of_mem_ofUnit hd⟩
      · rcases List.mem_append.mp hd with hd | hd
        · exact ⟨u, List.mem_cons_self, reports_of_mem_ofUnit hd⟩
        · obtain ⟨u', hu', hreports⟩ := ih hd
          exact ⟨u', List.mem_cons_of_mem _ hu', hreports⟩

/-- Nothing that the analyses report about the run is hidden. -/
theorem notHidden_of_mem_ofUnits [CharacterNames] (hrules : ∀ r ∈ rules, r.1 ∈ Hazard.rules)
    {units : List Ingested} {n : Nat} {d : Diagnostic}
    (hd : d ∈ (ofUnits s budget rules units n).diagnostics) : d.NotHidden := by
  obtain ⟨u, _, ⟨m, _, r, hr, hfound⟩ | ⟨hopen, _⟩⟩ := reports_of_mem_ofUnits hd
  · exact Rule.notHidden_of_mem_findings (hrules r hr) hfound
  · exact fun _ => hopen

theorem ofUnits_halt_eq_none (hclock : s.Measurable) (budget : Option Float) (rules : RuleList)
    (units : List Ingested) (n : Nat) : (ofUnits s budget rules units n).halt = none := by
  induction units generalizing n with
  | nil => rfl
  | cons u rest ih =>
      rw [ofUnits_cons_of_go (ofUnit_halt_eq_none hclock budget rules n u)]
      exact ih _

end Pass

/-! ## The verdict -/

namespace Analysis

theorem exists_ofPass {settings : EngineSettings} {p : Pass} (h : p.halt = none) :
    ∃ a, ofPass settings p = .ok a := by
  unfold ofPass
  rw [h]
  exact ⟨_, rfl⟩

theorem ofPass_clean_iff (settings : EngineSettings) {p : Pass}
    (h : ∀ d ∈ p.diagnostics, d.NotHidden) :
    (∃ a, ofPass settings p = .ok a ∧ a.outcome = .clean) ↔ p.Quiet := by
  have hmem (d : Diagnostic) : d ∈ Diagnostic.sorted p.diagnostics ↔ d ∈ p.diagnostics :=
    List.mem_mergeSort
  have hsorted : ∀ d ∈ Diagnostic.sorted p.diagnostics, d.NotHidden :=
    fun d hd => h d ((hmem d).mp hd)
  have hclean := Outcome.of_eq_clean_iff settings.partialResults hsorted
  simp only [hmem] at hclean
  unfold ofPass Pass.Quiet
  cases hhalt : p.halt with
  | some o =>
      refine iff_of_false ?_ (by simp)
      rintro ⟨a, ha, _⟩
      exact absurd ha (throw_ne_ok _ _)
  | none =>
      rw [← hclean]
      constructor
      · rintro ⟨a, ha, houtcome⟩
        obtain rfl := (pure_eq_ok_iff _ _).mp ha
        exact ⟨rfl, houtcome⟩
      · rintro ⟨_, houtcome⟩
        exact ⟨_, rfl, houtcome⟩

section

variable [CharacterNames] {rules : RuleList} (hrules : ∀ r ∈ rules, r.1 ∈ Hazard.rules)
  (settings : EngineSettings)

include hrules

theorem ofUnits_clean_iff (s : Schedule) (units : List Ingested) :
    (∃ a, ofUnits settings rules s units = .ok a ∧ a.outcome = .clean) ↔
      ∀ b ∈ Pass.begun s settings.unitTimeout rules units 0,
        ∃ m, b.2 = .model m ∧ Pass.Complete s settings.unitTimeout rules b.1 m := by
  unfold ofUnits
  rw [ofPass_clean_iff settings fun d hd => Pass.notHidden_of_mem_ofUnits hrules hd,
    Pass.ofUnits_quiet_iff]
  simp only [Pass.ofUnit_quiet_iff]

/-- The same of units side by side, each of which has its own share of the readings: when the
    outcome is clean, every worker has done all its work. -/
theorem ofShares_clean_iff (deadline : Option Number) (shares : List (Schedule × Ingested))
    (hdeadline : ∀ share ∈ shares, share.1.deadline = deadline) :
    (∃ a, ofPass settings (Pass.ofShares settings.unitTimeout rules shares) = .ok a
        ∧ a.outcome = .clean) ↔
      ∀ share ∈ shares, ∃ m, share.2 = .model m ∧
        Pass.Complete share.1 settings.unitTimeout rules 0 m := by
  -- The workers report what is reported in a row under some schedule.
  obtain ⟨s, _, hserial⟩ := Pass.exists_serial settings.unitTimeout rules deadline shares hdeadline
  have hnotHidden : ∀ d ∈ (Pass.ofShares settings.unitTimeout rules shares).diagnostics,
      d.NotHidden := by
    rw [← hserial]
    exact fun d hd => Pass.notHidden_of_mem_ofUnits hrules hd
  rw [ofPass_clean_iff settings hnotHidden, Pass.ofShares_quiet_iff]
  simp only [Pass.ofUnit_quiet_iff]

omit hrules

/-- **A clean verdict means a complete analysis.** A configuration that is accepted enables rules
    that are there. With them the analysis of any units comes to a result if the differences of the
    clock's readings can be taken, and its outcome is clean if and only if every unit has been
    ingested, every rule has been evaluated on it and has returned, no unit was beyond its time
    limit, and every candidate has a waiver. Neither the deadline nor when the run is called off nor
    whether partial results are enough makes a difference to this, and neither do workers, whichever
    readings of the clock each of them gets. -/
theorem clean_iff_complete {v : Value} {c : Config} (h : Config.ofValue v = .ok c) (s : Schedule)
    (units : List Ingested) :
    ∃ rules, c.catalog.enabled = .ok rules ∧
      (s.Measurable → ∃ a, ofUnits c.engine rules s units = .ok a) ∧
      ((∃ a, ofUnits c.engine rules s units = .ok a ∧ a.outcome = .clean) ↔
        ∀ b ∈ Pass.begun s c.engine.unitTimeout rules units 0,
          ∃ m, b.2 = .model m ∧ Pass.Complete s c.engine.unitTimeout rules b.1 m) ∧
      ∀ shares : List (Schedule × Ingested),
        (∀ share ∈ shares, share.1.deadline = s.deadline) →
        ((∃ a, ofPass c.engine (Pass.ofShares c.engine.unitTimeout rules shares) = .ok a
            ∧ a.outcome = .clean) ↔
          ∀ share ∈ shares, ∃ m, share.2 = .model m ∧
            Pass.Complete share.1 c.engine.unitTimeout rules 0 m) := by
  obtain ⟨rules, henabled⟩ := (Config.catalog_full_of_ofValue h).exists_enabled
  have hrules : ∀ r ∈ rules, r.1 ∈ Hazard.rules :=
    fun r hr => Catalog.mem_rules_of_enabled henabled hr
  refine ⟨rules, henabled, ?_, ofUnits_clean_iff hrules c.engine s units, ?_⟩
  · intro hclock
    exact exists_ofPass (Pass.ofUnits_halt_eq_none hclock _ rules units 0)
  · intro shares hdeadline
    exact ofShares_clean_iff hrules c.engine s.deadline shares hdeadline

end

open scoped CharacterNames

/-- A run that is called off before its first rule, on a clock that counts its readings. -/
def calledOffAtOnce : Schedule where
  reading n := .int n
  cancelled _ := true

/-- With the default configuration, such a run over a unit without any facts has a result, and
    though there is nothing to be found in the unit the result is not clean. -/
theorem not_clean_calledOffAtOnce :
    ∃ rules, Catalog.default.enabled = .ok rules ∧
      (∃ a, ofUnits {} rules calledOffAtOnce [.model { unit := "empty" }] = .ok a) ∧
      ¬ ∃ a, ofUnits {} rules calledOffAtOnce [.model { unit := "empty" }] = .ok a
        ∧ a.outcome = .clean := by
  have hdefault : Config.ofValue .null = .ok {} := rfl
  obtain ⟨rules, henabled, hresult, hclean, _⟩ :=
    clean_iff_complete hdefault calledOffAtOnce [.model { unit := "empty" }]
  refine ⟨rules, henabled, hresult (Schedule.measurable_of_int _ fun n => ⟨n, rfl⟩), ?_⟩
  rw [hclean]
  intro hall
  obtain ⟨m, _, hcomplete⟩ := hall _ List.mem_cons_self
  have hten : Catalog.default.enabled = .ok (Hazard.rules.map fun r => (r, r.defaults)) := rfl
  obtain rfl := Except.ok.inj (henabled.symm.trans hten)
  exact (hcomplete.evaluated 0 (by decide)).2 (Or.inl rfl)

end Analysis

end Hazard
