import Hazard.Proofs.Config.Enabled
import Hazard.Proofs.Engine.Undisturbed
import Hazard.Proofs.Rule.Reads

set_option autoImplicit false

/-! # Rules do not influence one another

All rules look at the same facts, and what they find is mixed up in one report. Yet the settings of
a rule show only in what comes from that rule, its findings and the diagnostics that say that it has
failed (`Diagnostic.isFrom`). Two catalogs that agree on all other rules lead to the same report but
for these (`Analysis.undisturbed_catalogs`): what is left is what the other rules have found, and
since leaving out diagnostics commutes with putting them in order, it is left in the same order. If
the catalogs agree on everything but the levels of the rule, its diagnostics stay where they are,
since levels are not part of the keys. -/

namespace Hazard

/-! ## What comes from a rule -/

/-- Whether a diagnostic comes from the rule with an id: the rule has found it, or it says that the
    rule has failed. -/
def Diagnostic.isFrom (id : String) (d : Diagnostic) : Bool :=
  d.rule == id || (d.rule == internalRule &&
    match d.extras.lookup "rule" with
    | some (.text rule) => rule == id
    | _ => false)

/-- What a rule reports comes from it and from no other rule. -/
theorem Rule.NamesItself.isFrom_eq {r : Rule} {settings : RuleSettings}
    (h : r.NamesItself settings) {id : String} (hid : id ∉ runRules) {m : Model} {d : Diagnostic}
    (hd : d ∈ r.findings settings m) : d.isFrom id = (r.id == id) := by
  unfold findings at hd
  split at hd
  · next candidates hevaluate =>
      obtain ⟨c, hc, rfl⟩ := List.mem_map.mp hd
      have hrule : c.rule = r.id := h.candidates m candidates hevaluate c hc
      have hinternal : r.id ≠ internalRule := by
        intro heq
        exact h.id (heq ▸ by decide)
      simp [Diagnostic.isFrom, Diagnostic.ofCandidate, hrule, hinternal]
  · next fault _ =>
      obtain rfl := List.mem_singleton.mp hd
      have hinternal : internalRule ≠ id := by
        rintro rfl
        exact hid (by decide)
      simp [Diagnostic.isFrom, Diagnostic.ruleFailed, Diagnostic.aboutRun, hinternal]

/-- Without what comes from a rule, there is left to report about a unit what there would be without
    the rule. -/
theorem Ingested.filter_isFrom_findings {rules : RuleList}
    (hrules : ∀ r ∈ rules, r.1.NamesItself r.2) {id : String} (hid : id ∉ runRules)
    (u : Ingested) :
    (u.findings rules).filter (!·.isFrom id) = u.findings (rules.filter (·.1.id != id)) := by
  cases u with
  | failure f =>
      have hingest : ingestRule ≠ id := by
        rintro rfl
        exact hid (by decide)
      have hinternal : (ingestRule == internalRule) = false := by decide
      simp [findings, Diagnostic.isFrom, Diagnostic.notIngested, Diagnostic.aboutRun, hingest,
        hinternal]
  | model m =>
      simp only [findings]
      induction rules with
      | nil => rfl
      | cons r rest ih =>
          have hr := hrules r List.mem_cons_self
          rw [List.flatMap_cons, List.filter_append, ih fun r' h => hrules r' (.tail _ h)]
          by_cases heq : r.1.id = id
          · have hnil : (r.1.findings r.2 m).filter (!·.isFrom id) = [] := by
              refine List.filter_eq_nil_iff.mpr fun d hd => ?_
              simp [hr.isFrom_eq hid hd, heq]
            rw [hnil, List.filter_cons_of_neg (by simp [heq]), List.nil_append]
          · have hself : (r.1.findings r.2 m).filter (!·.isFrom id) = r.1.findings r.2 m := by
              refine List.filter_eq_self.mpr fun d hd => ?_
              simp [hr.isFrom_eq hid hd, heq]
            rw [hself, List.filter_cons_of_pos (by simp [heq]), List.flatMap_cons]

/-! ## Levels -/

/-- The settings are the same but for the levels. -/
def RuleSettings.SameButLevels (s t : RuleSettings) : Prop :=
  t = { s with severity := t.severity, confidence := t.confidence }

/-- The diagnostics are the same, or they bear the given id and are the same but for the levels. -/
def Diagnostic.SameButLevelsOf (id : String) (d e : Diagnostic) : Prop :=
  e = d ∨ d.rule = id ∧ e = { d with severity := e.severity, confidence := e.confidence }

theorem Diagnostic.SameButLevelsOf.sortKey_eq {id : String} {d e : Diagnostic}
    (h : SameButLevelsOf id d e) : d.sortKey = e.sortKey := by
  rcases h with rfl | ⟨_, h⟩
  · rfl
  · rw [h]
    rfl

/-- The rules are the same, with the same settings but for the levels of the rule with an id. -/
def RuleList.SameButLevelsOf (id : String) (rules rules' : RuleList) : Prop :=
  List.Forall₂ (fun r r' => r'.1 = r.1 ∧ (r'.2 = r.2 ∨ r.1.id = id ∧ r.2.SameButLevels r'.2))
    rules rules'

/-- Levels show in the diagnostics only, and only in those of the rule. -/
theorem Rule.findings_sameButLevelsOf [CharacterNames] {r : Rule} (hr : r ∈ rules)
    {s t : RuleSettings} (h : s.SameButLevels t) (m : Model) :
    List.Forall₂ (Diagnostic.SameButLevelsOf r.id) (r.findings s m) (r.findings t m) := by
  have hthresholds : t.thresholds = s.thresholds := by rw [h]
  unfold findings
  rw [evaluate_eq_of_thresholds_eq hr m hthresholds]
  cases hevaluate : r.evaluate m s with
  | error fault => exact .cons (Or.inl rfl) .nil
  | ok candidates =>
      rw [List.forall₂_map_left_iff, List.forall₂_map_right_iff, List.forall₂_same]
      intro c hc
      exact Or.inr ⟨(rules_nameThemselves hr s).candidates m candidates hevaluate c hc, rfl⟩

theorem Diagnostic.forall₂_sameButLevelsOf_refl (id : String) (ds : List Diagnostic) :
    List.Forall₂ (SameButLevelsOf id) ds ds :=
  List.forall₂_same.mpr fun _ _ => Or.inl rfl

theorem Ingested.findings_sameButLevelsOf [CharacterNames] {id : String} {rules rules' : RuleList}
    (hrules : ∀ r ∈ rules, r.1 ∈ Hazard.rules) (h : RuleList.SameButLevelsOf id rules rules')
    (u : Ingested) :
    List.Forall₂ (Diagnostic.SameButLevelsOf id) (u.findings rules) (u.findings rules') := by
  cases u with
  | failure f => exact Diagnostic.forall₂_sameButLevelsOf_refl id _
  | model m =>
      simp only [findings]
      induction h with
      | nil => exact .nil
      | @cons r r' _ _ hsame _ ih =>
          rw [List.flatMap_cons, List.flatMap_cons]
          refine List.rel_append ?_ (ih fun r h => hrules r (.tail _ h))
          obtain ⟨hrule, hsettings⟩ := hsame
          rw [hrule]
          rcases hsettings with hsettings | ⟨rfl, hsettings⟩
          · rw [hsettings]
            exact Diagnostic.forall₂_sameButLevelsOf_refl id _
          · exact Rule.findings_sameButLevelsOf (hrules r List.mem_cons_self) hsettings m

/-! ## Catalogs -/

namespace Catalog

/-- The catalogs have the same entries for all rules but one. -/
def AgreesExceptOn (id : String) (c c' : Catalog) : Prop :=
  c.settings.filter (·.rule != id) = c'.settings.filter (·.rule != id)

/-- The catalogs have the same entries but for the levels of a rule. -/
def AgreesButLevelsOf (id : String) (c c' : Catalog) : Prop :=
  List.Forall₂ (fun s t => t = s ∨ s.rule = id ∧ s.SameButLevels t) c.settings c'.settings

theorem AgreesExceptOn.enabled_eq [CharacterNames] {id : String} {c c' : Catalog}
    (h : c.AgreesExceptOn id c')
    {rules rules' : RuleList} (hrules : c.enabled = .ok rules) (hrules' : c'.enabled = .ok rules') :
    rules.filter (·.1.id != id) = rules'.filter (·.1.id != id) := by
  have hid (s : RuleSettings) (found : Rule × RuleSettings) (hfound : lookUp s = .ok found) :
      (found.1.id != id) = (s.rule != id) := by
    rw [id_of_lookUp hfound]
  rw [Catalog.enabled_eq] at hrules hrules'
  have hothers := mapM_filter hid hrules
  have hothers' := mapM_filter hid hrules'
  rw [List.filter_comm] at hothers hothers'
  rw [h] at hothers
  exact Except.ok.inj (hothers.symm.trans hothers')

theorem AgreesButLevelsOf.enabled_sameButLevelsOf [CharacterNames] {id : String} {c c' : Catalog}
    (h : c.AgreesButLevelsOf id c') {rules rules' : RuleList} (hrules : c.enabled = .ok rules)
    (hrules' : c'.enabled = .ok rules') : RuleList.SameButLevelsOf id rules rules' := by
  -- The levels do not decide whether a rule is enabled.
  have hsettings := List.rel_filter (p := (·.enabled)) (q := (·.enabled)) (fun s t hst => by
    rcases hst with rfl | ⟨_, hst⟩
    · exact Iff.rfl
    · rw [hst]) h
  rw [Catalog.enabled_eq] at hrules hrules'
  refine forall₂_of_mapM (fun s t r r' hst hr hr' => ?_) hsettings hrules hrules'
  have hid : r.1.id = s.rule := id_of_lookUp hr
  obtain ⟨hr, rfl⟩ := (lookUp_eq_ok_iff s r).mp hr
  obtain ⟨hr', rfl⟩ := (lookUp_eq_ok_iff t r').mp hr'
  have hrule : r'.2.rule = r.2.rule := by
    rcases hst with hst | ⟨_, hst⟩
    · rw [hst]
    · rw [hst]
  rw [hrule, hr] at hr'
  exact ⟨(Option.some.inj hr').symm, hst.imp_right fun ⟨h, hst⟩ => ⟨hid.trans h, hst⟩⟩

end Catalog

/-! ## Runs -/

namespace Analysis

variable {settings : EngineSettings} {rules rules' : RuleList} {units : List Ingested}
  {a a' : Analysis}

/-- What rules that agree but for one report, without what comes from that rule. -/
theorem Reports.filter_isFrom_eq (ha : a.Reports settings rules units)
    (ha' : a'.Reports settings rules' units) (hrules : ∀ r ∈ rules, r.1.NamesItself r.2)
    (hrules' : ∀ r ∈ rules', r.1.NamesItself r.2) {id : String} (hid : id ∉ runRules)
    (h : rules.filter (·.1.id != id) = rules'.filter (·.1.id != id)) :
    a.diagnostics.filter (!·.isFrom id) = a'.diagnostics.filter (!·.isFrom id) := by
  rw [ha.diagnostics, ha'.diagnostics, Diagnostic.filter_sorted, Diagnostic.filter_sorted,
    List.filter_flatMap, List.filter_flatMap]
  refine congrArg Diagnostic.sorted (List.flatMap_congr fun u _ => ?_)
  rw [u.filter_isFrom_findings hrules hid, u.filter_isFrom_findings hrules' hid, h]

/-- What rules that agree but for the levels of one report. -/
theorem Reports.sameButLevelsOf [CharacterNames] (ha : a.Reports settings rules units)
    (ha' : a'.Reports settings rules' units) (hrules : ∀ r ∈ rules, r.1 ∈ Hazard.rules)
    {id : String} (h : RuleList.SameButLevelsOf id rules rules') :
    List.Forall₂ (Diagnostic.SameButLevelsOf id) a.diagnostics a'.diagnostics := by
  rw [ha.diagnostics, ha'.diagnostics]
  refine Diagnostic.forall₂_sorted (fun d e => Diagnostic.SameButLevelsOf.sortKey_eq) ?_
  refine List.rel_flatMap (List.forall₂_same.mpr fun u _ => rfl) fun u u' hu => ?_
  obtain rfl : u = u' := hu
  exact u.findings_sameButLevelsOf hrules h

/-- **Rules are independent.** With rules from two catalogs, runs over the same units that nothing
    interferes with both have a result. If the catalogs agree on all rules but one, the results are
    the same sequence of diagnostics once what comes from that rule is left out. If they differ in
    the levels of that rule only, the diagnostics correspond to one another position by position,
    and differ in nothing but the levels of those that the rule has found. -/
theorem undisturbed_catalogs [CharacterNames] (settings : EngineSettings)
    (hsettings : settings.unitTimeout = none)
    {q : Rule} (hq : q ∈ Hazard.rules) {c c' : Catalog} {rules rules' : RuleList}
    (hrules : c.enabled = .ok rules) (hrules' : c'.enabled = .ok rules') (units : List Ingested)
    {r r' : Except Halt Analysis} (h : Undisturbed settings rules units r)
    (h' : Undisturbed settings rules' units r') :
    ∃ a a', r = .ok a ∧ r' = .ok a' ∧
      (c.AgreesExceptOn q.id c' →
        a.diagnostics.filter (!·.isFrom q.id) = a'.diagnostics.filter (!·.isFrom q.id)) ∧
      (c.AgreesButLevelsOf q.id c' →
        List.Forall₂ (Diagnostic.SameButLevelsOf q.id) a.diagnostics a'.diagnostics) := by
  obtain ⟨a, rfl, ha⟩ := h.exists_reports hsettings
  obtain ⟨a', rfl, ha'⟩ := h'.exists_reports hsettings
  have htable : ∀ r ∈ rules, r.1 ∈ Hazard.rules :=
    fun r hr => Catalog.mem_rules_of_enabled hrules hr
  have htable' : ∀ r ∈ rules', r.1 ∈ Hazard.rules :=
    fun r hr => Catalog.mem_rules_of_enabled hrules' hr
  refine ⟨a, a', rfl, rfl, ?_, ?_⟩
  · intro hagree
    exact ha.filter_isFrom_eq ha' (fun r hr => rules_nameThemselves (htable r hr) r.2)
      (fun r hr => rules_nameThemselves (htable' r hr) r.2) (id_not_mem_runRules hq)
      (hagree.enabled_eq hrules hrules')
  · intro hagree
    exact ha.sameButLevelsOf ha' htable (hagree.enabled_sameButLevelsOf hrules hrules')

open scoped CharacterNames

/-- The settings of a rule, of which those of the rule about channels are strict. -/
def strictSettings (r : Rule) : RuleSettings :=
  if r.id = ZeroCapacity.rule.id then { r.defaults with severity := some "error" } else r.defaults

/-- The catalog with these settings. -/
def strictCatalog : Catalog := ⟨Hazard.rules.map strictSettings⟩

/-- The reports with the default settings and with the strict ones differ in the levels of what the
    rule about channels has found, and in nothing else. -/
theorem undisturbed_strictCatalog :
    ∃ a a', ofUnits {} (Hazard.rules.map fun r => (r, r.defaults)) .still [.model pipe] = .ok a ∧
      ofUnits {} (Hazard.rules.map fun r => (r, strictSettings r)) .still [.model pipe] = .ok a' ∧
      a.diagnostics.filter (!·.isFrom "Sc.1") = a'.diagnostics.filter (!·.isFrom "Sc.1") ∧
      List.Forall₂ (Diagnostic.SameButLevelsOf "Sc.1") a.diagnostics a'.diagnostics := by
  have hq : ZeroCapacity.rule ∈ Hazard.rules := by simp [Hazard.rules]
  have hdefault : Catalog.default.enabled = .ok (Hazard.rules.map fun r => (r, r.defaults)) := rfl
  have hstrict : strictCatalog.enabled = .ok (Hazard.rules.map fun r => (r, strictSettings r)) :=
    rfl
  obtain ⟨a, a', ha, ha', hothers, hlevels⟩ := undisturbed_catalogs {} rfl hq hdefault hstrict
    [.model pipe] (.inRow .still Schedule.still_undisturbed)
    (.inRow .still Schedule.still_undisturbed)
  refine ⟨a, a', ha, ha', hothers rfl, hlevels ?_⟩
  have hdefaults : Catalog.default = ⟨Hazard.rules.map fun r => r.defaults⟩ := rfl
  rw [Catalog.AgreesButLevelsOf, hdefaults, strictCatalog, List.forall₂_map_left_iff,
    List.forall₂_map_right_iff, List.forall₂_same]
  intro r _
  rw [strictSettings]
  split
  · next hid => exact Or.inr ⟨hid, rfl⟩
  · exact Or.inl rfl

end Analysis

end Hazard
