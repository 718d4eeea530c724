import Hazard.Proofs.Engine.Undisturbed
import Hazard.Proofs.Engine.Verdict
import Hazard.Proofs.Rule.Reads

set_option autoImplicit false

/-! # Waivers mark what is found

A hazard that is accepted is still reported, with a mark and the reason why it is accepted. So
waivers must not decide what is found, and a waiver more must not take back what another one has
said. Both are statements about two runs, one over units with some waivers and one over the same
units with further ones after them. No rule looks at the waivers of the unit, the course of a run
depends on the clock and not on what is found, and marks are not part of the keys. So the
diagnostics of the two runs correspond to one another position by position, before they are put in
order (`Pass.ofUnit_corresponds`) and afterwards (`Analysis.waivers_only_mark`), and the first
waiver that accepts a finding remains the first. -/

namespace Hazard

/-! ## What a waiver accepts -/

namespace Waiver

/-- The waiver speaks of a rule: it names the rule or all rules, or it names none and carries a
    marker that the rule recognises. -/
def SpeaksOf (a : Waiver) (r : RuleInfo) : Prop :=
  a.rule = some r.id ∨ a.rule = some everyRule ∨
    a.rule = none ∧ ∃ marker ∈ r.markers, a.marker = some marker

/-- The waiver holds for the whole unit or for the line of a location. -/
def HoldsAt (a : Waiver) (loc : Location) : Prop :=
  a.location = none ∨
    ∃ place, a.location = some place ∧ place.file = loc.file ∧ place.line = loc.line

theorem covers_iff (a : Waiver) (r : RuleInfo) :
    a.covers r.id r.markers = true ↔ a.SpeaksOf r := by
  unfold covers SpeaksOf
  cases a.rule with
  | some named => simp
  | none =>
      cases a.marker with
      | some marker => simp
      | none => simp

theorem appliesAt_iff (a : Waiver) (loc : Location) : a.appliesAt loc = true ↔ a.HoldsAt loc := by
  unfold appliesAt HoldsAt
  cases a.location with
  | none => simp
  | some place => simp [Location.sameLine]

end Waiver

namespace Candidate

/-- A candidate of a rule is accepted, by a waiver of its own or by one of the unit. -/
def Accepted (c : Candidate) (r : RuleInfo) (unitWaivers : List Waiver) : Prop :=
  (∃ a ∈ c.waivers, a.SpeaksOf r) ∨ ∃ a ∈ unitWaivers, a.HoldsAt c.location ∧ a.SpeaksOf r

theorem waiver?_isSome_iff {c : Candidate} {r : RuleInfo} (hc : c.rule = r.id) (ws : List Waiver) :
    (c.waiver? r.markers ws).isSome = true ↔ c.Accepted r ws := by
  have hown : (c.waivers.find? (·.covers c.rule r.markers)).isSome = true ↔
      ∃ a ∈ c.waivers, a.SpeaksOf r := by
    simp only [List.find?_isSome, hc, Waiver.covers_iff]
  have hunit : (ws.find? fun a => a.appliesAt c.location && a.covers c.rule r.markers).isSome = true
      ↔ ∃ a ∈ ws, a.HoldsAt c.location ∧ a.SpeaksOf r := by
    simp only [List.find?_isSome, Bool.and_eq_true, hc, Waiver.covers_iff, Waiver.appliesAt_iff]
  unfold waiver? Accepted
  rw [← hown, ← hunit]
  cases c.waivers.find? (·.covers c.rule r.markers) with
  | some a => simp
  | none => simp

/-- Further waivers of the unit do not replace the one that accepts a candidate. -/
theorem waiver?_append {c : Candidate} {markers : List String} {ws : List Waiver} {a : Waiver}
    (h : c.waiver? markers ws = some a) (more : List Waiver) :
    c.waiver? markers (ws ++ more) = some a := by
  unfold waiver? at h ⊢
  split at h
  · exact h
  · rw [List.find?_append, h, Option.some_or]

end Candidate

/-! ## Diagnostics -/

/-- The unit with further waivers. -/
def Ingested.waive (more : List Waiver) : Ingested → Ingested
  | .model m => .model (m.withWaivers (m.waivers ++ more))
  | .failure f => .failure f

/-- How a diagnostic about a unit corresponds to the one in its place when the unit has further
    waivers. -/
structure Diagnostic.Remarked (rules : RuleList) (u : Ingested) (more : List Waiver)
    (d d' : Diagnostic) : Prop where
  /-- They are the same but for the mark and the reason. -/
  same : d' = { d with suppressed := d'.suppressed, justification := d'.justification }
  /-- What is accepted remains so, and for the same reason. -/
  kept : d.suppressed = true → d'.suppressed = true ∧ d'.justification = d.justification
  /-- What is about the run is never accepted. -/
  aboutRun : d.isAboutRun = true → d.suppressed = false ∧ d'.suppressed = false
  /-- Everything else comes from a candidate, and it is accepted if the candidate is. -/
  aboutUnit : d.isAboutRun = false →
    ∃ m, u = .model m ∧ ∃ r ∈ rules, ∃ candidates, r.1.evaluate m r.2 = .ok candidates ∧
      ∃ c ∈ candidates, d = .ofCandidate m r.1.toRuleInfo r.2 c ∧
        (d.suppressed = true ↔ c.Accepted r.1.toRuleInfo m.waivers) ∧
        (d'.suppressed = true ↔ c.Accepted r.1.toRuleInfo (m.waivers ++ more))

/-- The diagnostic is about one of several units and corresponds to the one in its place when each
    of the units has further waivers. -/
def Diagnostic.RemarkedAmong (rules : RuleList) (units : List (Ingested × List Waiver))
    (d d' : Diagnostic) : Prop :=
  ∃ u ∈ units, Remarked rules u.1 u.2 d d'

namespace Diagnostic

variable {rules : RuleList} {more : List Waiver}

theorem Remarked.sortKey_eq {u : Ingested} {d d' : Diagnostic} (h : Remarked rules u more d d') :
    d.sortKey = d'.sortKey := by
  rw [h.same]
  rfl

theorem RemarkedAmong.sortKey_eq {units : List (Ingested × List Waiver)} {d d' : Diagnostic}
    (h : RemarkedAmong rules units d d') : d.sortKey = d'.sortKey := by
  obtain ⟨u, _, h⟩ := h
  exact h.sortKey_eq

theorem RemarkedAmong.cons {units : List (Ingested × List Waiver)} {d d' : Diagnostic}
    (h : RemarkedAmong rules units d d') (u : Ingested × List Waiver) :
    RemarkedAmong rules (u :: units) d d' := by
  obtain ⟨v, hv, h⟩ := h
  exact ⟨v, List.mem_cons_of_mem _ hv, h⟩

theorem aboutRun_remarked {u : Ingested} {unit rule severity message : String}
    {location : Option Location} {extras : Extras} (hrule : runRules.contains rule = true) :
    Remarked rules u more (aboutRun unit rule severity message location extras)
      (aboutRun unit rule severity message location extras) where
  same := rfl
  kept h := ⟨h, rfl⟩
  aboutRun _ := ⟨rfl, rfl⟩
  aboutUnit h := absurd (hrule.symm.trans h) nofun

theorem ofCandidate_remarked [CharacterNames] {r : Rule × RuleSettings} (hr : r ∈ rules)
    (htable : r.1 ∈ Hazard.rules) {m : Model} {candidates : List Candidate}
    (hevaluate : r.1.evaluate m r.2 = .ok candidates) {c : Candidate} (hc : c ∈ candidates) :
    Remarked rules (.model m) more (ofCandidate m r.1.toRuleInfo r.2 c)
      (ofCandidate (m.withWaivers (m.waivers ++ more)) r.1.toRuleInfo r.2 c) := by
  have hrule : c.rule = r.1.id :=
    (rules_nameThemselves htable r.2).candidates m candidates hevaluate c hc
  constructor
  · rfl
  · intro h
    obtain ⟨a, ha⟩ := Option.isSome_iff_exists.mp h
    have ha' := Candidate.waiver?_append ha more
    exact ⟨by simp [ofCandidate, ha'], by simp [ofCandidate, ha, ha']⟩
  · intro hrun
    have hmem : c.rule ∈ runRules := List.contains_iff_mem.mp hrun
    rw [hrule] at hmem
    exact absurd hmem (id_not_mem_runRules htable)
  · intro _
    exact ⟨m, rfl, r, hr, candidates, hevaluate, c, hc, rfl, Candidate.waiver?_isSome_iff hrule _,
      Candidate.waiver?_isSome_iff hrule _⟩

end Diagnostic

/-- A rule finds the same whatever the waivers. -/
theorem Rule.findings_remarked [CharacterNames] {rules : RuleList} {r : Rule × RuleSettings}
    (hr : r ∈ rules) (htable : r.1 ∈ Hazard.rules) (m : Model) (more : List Waiver) :
    List.Forall₂ (Diagnostic.Remarked rules (.model m) more) (r.1.findings r.2 m)
      (r.1.findings r.2 (m.withWaivers (m.waivers ++ more))) := by
  unfold findings
  rw [rules_ignoreWaivers htable]
  cases hevaluate : r.1.evaluate m r.2 with
  | error fault => exact .cons (Diagnostic.aboutRun_remarked (by decide)) .nil
  | ok candidates =>
      rw [List.forall₂_map_left_iff, List.forall₂_map_right_iff, List.forall₂_same]
      exact fun c hc => Diagnostic.ofCandidate_remarked hr htable hevaluate hc

theorem Rule.notices_withWaivers [CharacterNames] {r : Rule} (htable : r ∈ Hazard.rules)
    (settings : RuleSettings) (m : Model) (ws : List Waiver) :
    r.notices settings (m.withWaivers ws) = r.notices settings m := by
  unfold notices
  rw [rules_ignoreWaivers htable]
  rfl

/-! ## Passes -/

namespace Pass

/-- The passes take the same course, and their diagnostics correspond to one another position by
    position. -/
structure Corresponds (R : Diagnostic → Diagnostic → Prop) (p p' : Pass) : Prop where
  readings : p'.readings = p.readings
  halt : p'.halt = p.halt
  notices : p'.notices = p.notices
  diagnostics : List.Forall₂ R p.diagnostics p'.diagnostics

namespace Corresponds

variable {R S : Diagnostic → Diagnostic → Prop} {p p' q q' : Pass}

theorem of_forall (h : ∀ d ∈ p.diagnostics, R d d) : p.Corresponds R p :=
  ⟨rfl, rfl, rfl, List.forall₂_same.mpr h⟩

theorem mono (hRS : ∀ d d', R d d' → S d d') (h : p.Corresponds R p') : p.Corresponds S p' :=
  ⟨h.readings, h.halt, h.notices, h.diagnostics.imp hRS⟩

theorem append (hp : p.Corresponds R p') (hq : q.Corresponds R q') :
    (p.append q).Corresponds R (p'.append q') where
  readings := hq.readings
  halt := hq.halt
  notices := congrArg₂ (· ++ ·) hp.notices hq.notices
  diagnostics := List.rel_append hp.diagnostics hq.diagnostics

theorem later (h : p.Corresponds R p') (d : Nat) : (p.later d).Corresponds R (p'.later d) :=
  ⟨congrArg (· + d) h.readings, h.halt, h.notices, h.diagnostics⟩

end Corresponds

section

variable {rules : RuleList} (s : Schedule) (budget : Option Float)

/-- One diagnostic about the run, to which waivers make no difference. -/
theorem corresponds_of_aboutRun {p : Pass} {u : Ingested} {more : List Waiver}
    {unit rule severity message : String} {location : Option Location} {extras : Extras}
    (hp : p.diagnostics = [.aboutRun unit rule severity message location extras])
    (hrule : runRules.contains rule = true) :
    p.Corresponds (Diagnostic.Remarked rules u more) p := by
  refine .of_forall fun d hd => ?_
  rw [hp] at hd
  obtain rfl := List.mem_singleton.mp hd
  exact Diagnostic.aboutRun_remarked hrule

/-- What follows a rule does so whatever the waivers, since it is up to the clock. -/
theorem thenRest_corresponds {m : Model} {more : List Waiver} {started : Number} (rule : Rule)
    {rest : RuleList} {c : Nat}
    (hrest : (ofRules s budget m started rest (c + 1)).Corresponds
      (Diagnostic.Remarked rules (.model m) more)
      (ofRules s budget (m.withWaivers (m.waivers ++ more)) started rest (c + 1))) :
    (thenRest s budget m started rule rest c).Corresponds
      (Diagnostic.Remarked rules (.model m) more)
      (thenRest s budget (m.withWaivers (m.waivers ++ more)) started rule rest c) := by
  cases hsub : (s.reading c).sub started with
  | error o =>
      rw [thenRest_of_error hsub, thenRest_of_error hsub]
      exact .of_forall (by simp [halted])
  | ok elapsed =>
      cases hexceeded : exceeded? budget elapsed with
      | some limit =>
          rw [thenRest_of_exceeded hsub hexceeded, thenRest_of_exceeded hsub hexceeded]
          exact corresponds_of_aboutRun rfl (by decide)
      | none =>
          rw [thenRest_of_inTime hsub hexceeded, thenRest_of_inTime hsub hexceeded]
          exact hrest

variable [CharacterNames] (hrules : ∀ r ∈ rules, r.1 ∈ Hazard.rules)

include hrules

theorem after_corresponds {r : Rule × RuleSettings} (hr : r ∈ rules) {m : Model}
    {more : List Waiver} {p p' : Pass}
    (h : p.Corresponds (Diagnostic.Remarked rules (.model m) more) p') :
    (after r.1 r.2 m p).Corresponds (Diagnostic.Remarked rules (.model m) more)
      (after r.1 r.2 (m.withWaivers (m.waivers ++ more)) p') where
  readings := h.readings
  halt := h.halt
  notices := congrArg₂ (· ++ ·) (Rule.notices_withWaivers (hrules r hr) r.2 m _) h.notices
  diagnostics := List.rel_append (Rule.findings_remarked hr (hrules r hr) m more) h.diagnostics

/-- The rules that are `left` of a list come to the same with further waivers. -/
theorem ofRules_corresponds (m : Model) (more : List Waiver) (started : Number) (left : RuleList)
    (hleft : ∀ r ∈ left, r ∈ rules) (n : Nat) :
    (ofRules s budget m started left n).Corresponds (Diagnostic.Remarked rules (.model m) more)
      (ofRules s budget (m.withWaivers (m.waivers ++ more)) started left n) := by
  induction left generalizing n with
  | nil => exact .of_forall (by simp [ofRules])
  | cons r rest ih =>
      have ih := ih fun r' h => hleft r' (List.mem_cons_of_mem _ h)
      cases htest : s.stopTest n with
      | mk stopped c =>
          cases stopped with
          | true =>
              rw [ofRules, ofRules, htest]
              exact corresponds_of_aboutRun rfl (by decide)
          | false =>
              rw [ofRules_cons_of_go htest, ofRules_cons_of_go htest]
              exact after_corresponds hrules (hleft r List.mem_cons_self)
                (thenRest_corresponds s budget r.1 (ih (c + 1)))

theorem ofUnit_corresponds (n : Nat) (u : Ingested) (more : List Waiver) :
    (ofUnit s budget rules n u).Corresponds (Diagnostic.Remarked rules u more)
      (ofUnit s budget rules n (u.waive more)) := by
  cases u with
  | failure f => exact corresponds_of_aboutRun rfl (by decide)
  | model m =>
      exact ofRules_corresponds s budget hrules m more (s.reading n) rules (fun _ h => h) (n + 1)

theorem ofUnits_corresponds (units : List (Ingested × List Waiver)) (n : Nat) :
    (ofUnits s budget rules (units.map (·.1)) n).Corresponds
      (Diagnostic.RemarkedAmong rules units)
      (ofUnits s budget rules (units.map fun u => u.1.waive u.2) n) := by
  induction units generalizing n with
  | nil => exact .of_forall (by simp [ofUnits])
  | cons u rest ih =>
      have hfirst := (ofUnit_corresponds s budget hrules n u.1 u.2).mono
        (S := Diagnostic.RemarkedAmong rules (u :: rest)) fun d d' h => ⟨u, List.mem_cons_self, h⟩
      rw [List.map_cons, List.map_cons]
      cases hhalt : (ofUnit s budget rules n u.1).halt with
      | some o =>
          rw [ofUnits_cons_of_halt hhalt, ofUnits_cons_of_halt (hfirst.halt.trans hhalt)]
          exact hfirst
      | none =>
          rw [ofUnits_cons_of_go hhalt, ofUnits_cons_of_go (hfirst.halt.trans hhalt),
            hfirst.readings]
          exact hfirst.append ((ih _).mono fun d d' h => h.cons u)

theorem ofShares_corresponds (shares : List (Schedule × Ingested × List Waiver)) :
    (ofShares budget rules (shares.map fun x => (x.1, x.2.1))).Corresponds
      (Diagnostic.RemarkedAmong rules (shares.map (·.2)))
      (ofShares budget rules (shares.map fun x => (x.1, x.2.1.waive x.2.2))) := by
  induction shares with
  | nil => exact .of_forall (by simp [ofShares])
  | cons x rest ih =>
      have hfirst := (ofUnit_corresponds x.1 budget hrules 0 x.2.1 x.2.2).mono
        (S := Diagnostic.RemarkedAmong rules ((x :: rest).map (·.2)))
        fun d d' h => ⟨x.2, List.mem_cons_self, h⟩
      rw [List.map_cons, List.map_cons, List.map_cons]
      cases hhalt : (ofUnit x.1 budget rules 0 x.2.1).halt with
      | some o =>
          rw [ofShares_cons_of_halt budget hhalt,
            ofShares_cons_of_halt budget (hfirst.halt.trans hhalt)]
          exact hfirst
      | none =>
          rw [ofShares_cons_of_go budget hhalt,
            ofShares_cons_of_go budget (hfirst.halt.trans hhalt), hfirst.readings]
          exact hfirst.append ((ih.mono fun d d' h => h.cons x.2).later _)

end

end Pass

/-! ## Runs -/

namespace Analysis

/-- The runs come to the same halt, or both have a result and their diagnostics correspond to one
    another position by position. -/
inductive Corresponds (R : Diagnostic → Diagnostic → Prop) :
    Except Halt Analysis → Except Halt Analysis → Prop where
  | halted (h : Halt) : Corresponds R (.error h) (.error h)
  | done {a a' : Analysis} (hdiagnostics : List.Forall₂ R a.diagnostics a'.diagnostics)
      (hnotices : a'.notices = a.notices) : Corresponds R (.ok a) (.ok a')

theorem ofPass_corresponds (settings : EngineSettings) {R : Diagnostic → Diagnostic → Prop}
    (hkey : ∀ d d', R d d' → d.sortKey = d'.sortKey) {p p' : Pass} (h : p.Corresponds R p') :
    Corresponds R (ofPass settings p) (ofPass settings p') := by
  unfold ofPass
  rw [h.halt, h.notices]
  cases p.halt with
  | some o => exact .halted _
  | none => exact .done (Diagnostic.forall₂_sorted hkey h.diagnostics) rfl

/-- **Waivers mark and change nothing else.** Rules of the table are run twice under one schedule,
    once with the waivers `A` of a unit and once with `A ++ B`. Their diagnostics correspond to one
    another position by position (`Diagnostic.Remarked`): they are the same but for the mark and the
    reason, what is accepted remains accepted for the same reason, what is about the run is never
    accepted, and a finding is accepted if and only if a waiver of its candidate, or one of the unit
    for its line or for the whole unit, speaks of the rule. The same is true of the reports over
    several units, in a row and side by side. If the time that has passed can always be told, there
    are such results. -/
theorem waivers_only_mark [CharacterNames] {rules : RuleList}
    (hrules : ∀ r ∈ rules, r.1 ∈ Hazard.rules) (settings : EngineSettings) (s : Schedule) :
    (∀ (n : Nat) (m : Model) (A B : List Waiver),
      (Pass.ofUnit s settings.unitTimeout rules n (.model (m.withWaivers A))).Corresponds
        (Diagnostic.Remarked rules (.model (m.withWaivers A)) B)
        (Pass.ofUnit s settings.unitTimeout rules n (.model (m.withWaivers (A ++ B))))) ∧
    (∀ units : List (Ingested × List Waiver),
      Corresponds (Diagnostic.RemarkedAmong rules units)
        (ofUnits settings rules s (units.map (·.1)))
        (ofUnits settings rules s (units.map fun u => u.1.waive u.2))) ∧
    (∀ shares : List (Schedule × Ingested × List Waiver),
      Corresponds (Diagnostic.RemarkedAmong rules (shares.map (·.2)))
        (ofPass settings (Pass.ofShares settings.unitTimeout rules
          (shares.map fun x => (x.1, x.2.1))))
        (ofPass settings (Pass.ofShares settings.unitTimeout rules
          (shares.map fun x => (x.1, x.2.1.waive x.2.2))))) ∧
    (s.Measurable →
      (∀ n u, (Pass.ofUnit s settings.unitTimeout rules n u).halt = none) ∧
        ∀ units, ∃ a, ofUnits settings rules s units = .ok a) ∧
    (∀ shares : List (Schedule × Ingested), (∀ share ∈ shares, share.1.Measurable) →
      ∃ a, ofPass settings (Pass.ofShares settings.unitTimeout rules shares) = .ok a) := by
  refine ⟨?_, ?_, ?_, ?_, ?_⟩
  · intro n m A B
    exact Pass.ofUnit_corresponds s settings.unitTimeout hrules n (.model (m.withWaivers A)) B
  · intro units
    exact ofPass_corresponds settings (fun d d' h => h.sortKey_eq)
      (Pass.ofUnits_corresponds s settings.unitTimeout hrules units 0)
  · intro shares
    exact ofPass_corresponds settings (fun d d' h => h.sortKey_eq)
      (Pass.ofShares_corresponds settings.unitTimeout hrules shares)
  · intro hclock
    exact ⟨fun n u => Pass.ofUnit_halt_eq_none hclock _ rules n u,
      fun units => exists_ofPass (Pass.ofUnits_halt_eq_none hclock _ rules units 0)⟩
  · intro shares hclocks
    exact exists_ofPass (Pass.ofShares_halt_eq_none _ rules shares hclocks)

open scoped CharacterNames

/-- A waiver for the whole unit that carries a marker of the rule about channels. -/
def intended : Waiver := { marker := some "intentional", justification := "a rendezvous" }

/-- The channel is reported with and without the waiver, which marks it and gives the reason. -/
theorem waivers_only_mark_pipe :
    ∃ d d', (Pass.ofUnit .still none pipeRules 0 (.model pipe)).diagnostics = [d] ∧
      (Pass.ofUnit .still none pipeRules 0
        (.model (pipe.withWaivers [intended]))).diagnostics = [d'] ∧
      d.suppressed = false ∧
      d' = { d with suppressed := true, justification := some "a rendezvous" } := by
  have hrules : ∀ r ∈ pipeRules, r.1 ∈ Hazard.rules := by simp [pipeRules, Hazard.rules]
  obtain ⟨hunit, _⟩ := waivers_only_mark hrules {} .still
  have hmarked := (List.forall₂_cons.mp (hunit 0 pipe [] [intended]).diagnostics).1
  exact ⟨_, _, rfl, rfl, rfl, hmarked.same⟩

end Analysis

end Hazard
