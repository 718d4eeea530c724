import Hazard.Engine.Analysis
import Hazard.Proofs.Diagnostic.Sorted
import Hazard.Proofs.Engine.Workers
import Hazard.Rule.Table

set_option autoImplicit false

/-! # Runs that nothing interferes with

A run that is not called off and has neither a deadline nor a time limit evaluates every rule on
every unit. Its clock is read all the same, and workers share it, but none of this shows: such a run
reports what there is to report about each unit (`Ingested.findings`), in the order of reports
(`Analysis.Undisturbed.exists_reports`). What holds of these lists holds of the run. -/

namespace Hazard

/-- Nothing interferes with a run: it is not called off, it has no deadline, and the clock tells the
    time that has passed, as a clock that shows doubles always does (`measurable_of_real`). -/
structure Schedule.Undisturbed (s : Schedule) : Prop where
  goesOn : ∀ n, s.cancelled n = false
  endless : s.deadline = none
  measurable : s.Measurable

namespace Schedule

theorem still_undisturbed : still.Undisturbed where
  goesOn _ := rfl
  endless := rfl
  measurable := measurable_of_int _ fun _ => ⟨0, rfl⟩

/-- Without a time limit every turn passes. -/
theorem Undisturbed.passes {s : Schedule} (h : s.Undisturbed) (n i : Nat) : s.Passes none n i := by
  constructor
  · rintro (hcancelled | ⟨deadline, hdeadline, _⟩)
    · rw [h.goesOn] at hcancelled
      exact Bool.false_ne_true hcancelled
    · rw [h.endless] at hdeadline
      simp at hdeadline
  · obtain ⟨elapsed, helapsed⟩ := h.measurable (s.turn n i + s.testReadings) n
    exact ⟨elapsed, helapsed, nofun⟩

end Schedule

/-- All that there is to report about a unit. -/
def Ingested.findings (rules : RuleList) : Ingested → List Diagnostic
  | .failure f => [.notIngested f]
  | .model m => rules.flatMap fun r => r.1.findings r.2 m

/-! ## Passes -/

namespace Pass

/-- The pass comes to its end and has found the given diagnostics. -/
structure Finds (p : Pass) (ds : List Diagnostic) : Prop where
  halt : p.halt = none
  diagnostics : p.diagnostics = ds

theorem Finds.append {p q : Pass} {ds es : List Diagnostic} (hp : p.Finds ds) (hq : q.Finds es) :
    (p.append q).Finds (ds ++ es) where
  halt := hq.halt
  diagnostics := by rw [Pass.append, hp.diagnostics, hq.diagnostics]

theorem Finds.later {p : Pass} {ds : List Diagnostic} (h : p.Finds ds) (d : Nat) :
    (p.later d).Finds ds :=
  ⟨h.halt, h.diagnostics⟩

variable {s : Schedule} (rules : RuleList)

theorem ofUnit_finds (hs : s.Undisturbed) (n : Nat) (u : Ingested) :
    (ofUnit s none rules n u).Finds (u.findings rules) := by
  refine ⟨ofUnit_halt_eq_none hs.measurable none rules n u, ?_⟩
  cases u with
  | failure f => rfl
  | model m =>
      have hbegin : ofUnit s none rules n (.model m)
          = ofRules s none m (s.reading n) rules (s.turn n 0) := by
        simp [ofUnit, Schedule.turn]
      rw [hbegin, ofRules_of_passes rules n rules.length (Nat.le_refl _) fun i _ => hs.passes n i,
        List.take_length, List.drop_length, afterAll_diagnostics]
      exact List.append_nil _

theorem ofUnits_finds (hs : s.Undisturbed) (units : List Ingested) (n : Nat) :
    (ofUnits s none rules units n).Finds (units.flatMap (·.findings rules)) := by
  induction units generalizing n with
  | nil => exact ⟨rfl, rfl⟩
  | cons u rest ih =>
      have hfirst := ofUnit_finds rules hs n u
      rw [ofUnits_cons_of_go hfirst.halt, List.flatMap_cons]
      exact hfirst.append (ih _)

theorem ofShares_finds (shares : List (Schedule × Ingested))
    (hs : ∀ share ∈ shares, share.1.Undisturbed) :
    (ofShares none rules shares).Finds ((shares.map (·.2)).flatMap (·.findings rules)) := by
  induction shares with
  | nil => exact ⟨rfl, rfl⟩
  | cons share rest ih =>
      have hfirst := ofUnit_finds rules (hs share List.mem_cons_self) 0 share.2
      rw [ofShares_cons_of_go none hfirst.halt, List.map_cons, List.flatMap_cons]
      exact hfirst.append ((ih fun share' h => hs share' (List.mem_cons_of_mem _ h)).later _)

end Pass

/-! ## Runs -/

namespace Analysis

/-- What a run over some units can come to if nothing interferes. The units are analysed in a row or
    side by side, and then each of them has readings of its own. -/
inductive Undisturbed (settings : EngineSettings) (rules : RuleList) (units : List Ingested) :
    Except Halt Analysis → Prop where
  | inRow (s : Schedule) (hs : s.Undisturbed) :
      Undisturbed settings rules units (ofUnits settings rules s units)
  | sideBySide (shares : List (Schedule × Ingested)) (hunits : shares.map (·.2) = units)
      (hs : ∀ share ∈ shares, share.1.Undisturbed) :
      Undisturbed settings rules units
        (ofPass settings (Pass.ofShares settings.unitTimeout rules shares))

/-- What is reported is what there is to report about the units, in order, and the outcome is
    read off it. -/
structure Reports (settings : EngineSettings) (rules : RuleList) (units : List Ingested)
    (a : Analysis) : Prop where
  diagnostics : a.diagnostics = Diagnostic.sorted (units.flatMap (·.findings rules))
  outcome : a.outcome = Outcome.of settings.partialResults a.diagnostics

theorem exists_ofPass_reports (settings : EngineSettings) {rules : RuleList}
    {units : List Ingested} {p : Pass} (hp : p.Finds (units.flatMap (·.findings rules))) :
    ∃ a, ofPass settings p = .ok a ∧ a.Reports settings rules units := by
  refine ⟨_, by rw [ofPass, hp.halt]; rfl, ?_, rfl⟩
  rw [hp.diagnostics]

/-- **Undisturbed runs.** Without a time limit for the units, a run that nothing interferes with has
    a result, and it reports what there is to report. Neither the clock nor the workers matter. -/
theorem Undisturbed.exists_reports {settings : EngineSettings} {rules : RuleList}
    {units : List Ingested} {r : Except Halt Analysis}
    (hsettings : settings.unitTimeout = none) (h : Undisturbed settings rules units r) :
    ∃ a, r = .ok a ∧ a.Reports settings rules units := by
  cases h with
  | inRow s hs =>
      unfold ofUnits
      rw [hsettings]
      exact exists_ofPass_reports settings (Pass.ofUnits_finds rules hs units 0)
  | sideBySide shares hunits hs =>
      rw [hsettings]
      subst hunits
      exact exists_ofPass_reports settings (Pass.ofShares_finds rules shares hs)

/-! ## A unit to look at -/

/-- A unit with a channel that holds nothing. -/
def pipe : Model := { unit := "pipe", channels := [{ name := "jobs", capacity := .zero }] }

/-- The rule about such channels, with its default settings. -/
def pipeRules : RuleList := [(ZeroCapacity.rule, ZeroCapacity.info.defaults)]

end Analysis

end Hazard
