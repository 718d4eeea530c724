import Hazard.Proofs.Engine.Undisturbed

set_option autoImplicit false

/-! # The order of the units

The diagnostics of a run are put in order, but not everything that distinguishes two diagnostics is
in their keys, and diagnostics with the same key are reported in the order in which they were found,
which is that of the units. So permuting the units permutes the diagnostics and leaves their keys in
place (`Analysis.undisturbed_perm`). The name of the unit is in the key. If the units have different
names, diagnostics with the same key come from one unit, and nothing changes at all. -/

namespace Hazard

theorem Rule.unit_of_mem_findings {r : Rule} {settings : RuleSettings} {m : Model} {d : Diagnostic}
    (hd : d ∈ r.findings settings m) : d.unit = m.unit := by
  unfold findings at hd
  split at hd
  · obtain ⟨c, _, rfl⟩ := List.mem_map.mp hd
    rfl
  · obtain rfl := List.mem_singleton.mp hd
    rfl

/-- What is reported about a unit bears its name. -/
theorem Ingested.unit_of_mem_findings {rules : RuleList} {u : Ingested} {d : Diagnostic}
    (hd : d ∈ u.findings rules) : d.unit = u.unit := by
  cases u with
  | failure f =>
      obtain rfl := List.mem_singleton.mp hd
      rfl
  | model m =>
      obtain ⟨r, _, hd⟩ := List.mem_flatMap.mp hd
      exact Rule.unit_of_mem_findings hd

namespace Diagnostic

theorem tied_append (k : SortKey) (ds es : List Diagnostic) :
    tied k (ds ++ es) = tied k ds ++ tied k es :=
  List.filter_append ds es

/-- Units with different names have no key in common. -/
theorem tied_findings_eq_nil {rules : RuleList} {u v : Ingested} (h : u.unit ≠ v.unit)
    (k : SortKey) : tied k (u.findings rules) = [] ∨ tied k (v.findings rules) = [] := by
  by_contra hboth
  rw [not_or] at hboth
  obtain ⟨d, hd⟩ := List.exists_mem_of_ne_nil _ hboth.1
  obtain ⟨e, he⟩ := List.exists_mem_of_ne_nil _ hboth.2
  obtain ⟨hd, hdkey⟩ := List.mem_filter.mp hd
  obtain ⟨he, hekey⟩ := List.mem_filter.mp he
  have hkey : d.sortKey = e.sortKey := by
    rw [decide_eq_true_eq] at hdkey hekey
    rw [hdkey, hekey]
  apply h
  calc
    u.unit = d.unit := (Ingested.unit_of_mem_findings hd).symm
    _ = e.unit := unit_eq_of_sortKey_eq hkey
    _ = v.unit := Ingested.unit_of_mem_findings he

/-- If the units have different names, the diagnostics with one key are found in the same order
    whatever the order of the units. -/
theorem tied_flatMap_findings {rules : RuleList} {units units' : List Ingested}
    (hperm : units.Perm units') (hnames : (units.map Ingested.unit).Nodup) (k : SortKey) :
    tied k (units.flatMap (·.findings rules)) = tied k (units'.flatMap (·.findings rules)) := by
  induction hperm with
  | nil => rfl
  | cons u _ ih =>
      simp only [List.flatMap_cons, tied_append]
      rw [ih (List.nodup_cons.mp hnames).2]
  | swap u v rest =>
      have hne : v.unit ≠ u.unit := by
        have hnot := (List.nodup_cons.mp hnames).1
        exact fun heq => hnot (heq ▸ List.mem_cons_self)
      simp only [List.flatMap_cons, tied_append]
      -- One of the two has nothing to contribute.
      rcases tied_findings_eq_nil hne k with hnil | hnil
      · rw [hnil, List.nil_append, List.nil_append]
      · rw [hnil, List.nil_append, List.nil_append]
  | trans hperm _ ih ih' =>
      exact (ih hnames).trans (ih' ((hperm.map Ingested.unit).nodup_iff.mp hnames))

end Diagnostic

theorem Outcome.of_perm (partialResults : Bool) {ds es : List Diagnostic} (h : ds.Perm es) :
    Outcome.of partialResults ds = Outcome.of partialResults es := by
  unfold Outcome.of
  rw [h.any_eq, h.any_eq]

namespace Analysis

/-- **The order of the units does not matter.** Runs that nothing interferes with have results for
    the units in both orders, whether in a row or side by side and whatever the rules. Both report
    what there is to report about the units, sorted by the keys. They have the same outcome, the
    same diagnostics up to their order, and the same keys in the same order; and if the names of the
    units differ, they have the same diagnostics in the same order. -/
theorem undisturbed_perm (settings : EngineSettings) (hsettings : settings.unitTimeout = none)
    (rules : RuleList) {units units' : List Ingested} (hperm : units.Perm units')
    {r r' : Except Halt Analysis} (h : Undisturbed settings rules units r)
    (h' : Undisturbed settings rules units' r') :
    ∃ a a', r = .ok a ∧ r' = .ok a' ∧
      a.diagnostics.Perm (units.flatMap (·.findings rules)) ∧
      Diagnostic.InOrder a.diagnostics ∧ Diagnostic.InOrder a'.diagnostics ∧
      a.outcome = a'.outcome ∧
      a.diagnostics.Perm a'.diagnostics ∧
      a.diagnostics.map (·.sortKey) = a'.diagnostics.map (·.sortKey) ∧
      ((units.map Ingested.unit).Nodup → a.diagnostics = a'.diagnostics) := by
  obtain ⟨a, rfl, ha⟩ := h.exists_reports hsettings
  obtain ⟨a', rfl, ha'⟩ := h'.exists_reports hsettings
  have hfound : (units.flatMap (·.findings rules)).Perm (units'.flatMap (·.findings rules)) :=
    hperm.flatMap_right _
  have hsame : a.diagnostics.Perm a'.diagnostics := by
    rw [ha.diagnostics, ha'.diagnostics]
    exact (Diagnostic.sorted_perm _).trans (hfound.trans (Diagnostic.sorted_perm _).symm)
  refine ⟨a, a', rfl, rfl, ?_, ?_, ?_, ?_, hsame, ?_, ?_⟩
  · rw [ha.diagnostics]
    exact Diagnostic.sorted_perm _
  · rw [ha.diagnostics]
    exact Diagnostic.sorted_inOrder _
  · rw [ha'.diagnostics]
    exact Diagnostic.sorted_inOrder _
  · rw [ha.outcome, ha'.outcome]
    exact Outcome.of_perm _ hsame
  · rw [ha.diagnostics, ha'.diagnostics]
    exact Diagnostic.map_sortKey_sorted hfound
  · intro hnames
    rw [ha.diagnostics, ha'.diagnostics]
    exact Diagnostic.sorted_congr (Diagnostic.tied_flatMap_findings hperm hnames)

/-- A unit without facts. -/
def unreadUnit : Ingested := .failure { unit := "unread", reason := "no facts" }

/-- This unit and one with a channel that holds nothing are reported alike in a row and, the other
    way round, side by side. -/
theorem undisturbed_pipe_unreadUnit :
    ∃ a a', ofUnits {} pipeRules .still [.model pipe, unreadUnit] = .ok a ∧
      ofPass {} (Pass.ofShares none pipeRules [(.still, unreadUnit), (.still, .model pipe)])
        = .ok a' ∧
      a.diagnostics.length = 2 ∧ a.diagnostics = a'.diagnostics := by
  have hstill : ∀ share ∈ [(Schedule.still, unreadUnit), (Schedule.still, .model pipe)],
      share.1.Undisturbed := by
    simp [Schedule.still_undisturbed]
  obtain ⟨a, a', ha, ha', hfound, _, _, _, _, _, hsame⟩ := undisturbed_perm {} rfl pipeRules
    (List.Perm.swap unreadUnit (.model pipe) []) (.inRow .still Schedule.still_undisturbed)
    (.sideBySide _ rfl hstill)
  exact ⟨a, a', ha, ha', hfound.length_eq, hsame (by decide)⟩

end Analysis

end Hazard
