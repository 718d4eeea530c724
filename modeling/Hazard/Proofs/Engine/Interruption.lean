import Hazard.Engine.Pass

set_option autoImplicit false

/-! # How the analysis of a unit ends

The rules of a unit are run in turn, and two tests stand between one rule and the next: whether the
run has been called off, and whether the unit has taken too long. Both read the clock that all units
share, and the first of them reads it only if there is a deadline, so what a test sees depends on
how often the clock has been read before it. Since nothing but these tests reads the clock, that
number is known beforehand for every turn that comes (`Schedule.turn`), and with it the events that
can end the analysis can be told from the schedule alone: `Schedule.StopsBefore`,
`Schedule.OverrunsAfter` and `Schedule.LosesTrackAfter`.

`Pass.Course` lists the ways in which an analysis can go: all rules are run, or one of these events
is the first and cuts the rules short. `Pass.ofUnit_course` says that there is no other way. -/

namespace Hazard

/-! ## Events -/

namespace Schedule

variable (s : Schedule) (budget : Option Float)

/-- How often the test before a rule reads the clock unless the run has been called off. -/
def testReadings : Nat := if s.deadline.isSome then 1 else 0

/-- No rule is started after `c` readings: the run has been called off, or the clock shows the
    deadline or a later time. -/
def Stops (c : Nat) : Prop :=
  s.cancelled c = true ∨ ∃ deadline, s.deadline = some deadline ∧ deadline.le (s.reading c) = true

/-- How often the clock has been read when it is the turn of rule `i`, counted from zero, in a unit
    that was begun after `n` readings. Each rule before it has had its test and its reading of the
    time that was taken. -/
def turn (n i : Nat) : Nat := n + 1 + i * (s.testReadings + 1)

/-- The test before rule `i` ends the analysis. -/
def StopsBefore (n i : Nat) : Prop := s.Stops (s.turn n i)

/-- The time that the unit has taken when rule `i` is done. -/
def elapsedAfter (n i : Nat) : Except Overflow Number :=
  (s.reading (s.turn n i + s.testReadings)).sub (s.reading n)

/-- The unit has taken longer than its time limit when rule `i` is done. -/
def OverrunsAfter (n i : Nat) : Prop :=
  ∃ elapsed limit, s.elapsedAfter n i = .ok elapsed ∧ budget = some limit ∧
    (Number.real limit).lt elapsed = true

/-- When rule `i` is done, the time that the unit has taken is out of the range of doubles. -/
def LosesTrackAfter (n i : Nat) : Prop := ∃ o, s.elapsedAfter n i = .error o

/-- When rule `i` is done, the unit is within its time limit. -/
def InTimeAfter (n i : Nat) : Prop :=
  ∃ elapsed, s.elapsedAfter n i = .ok elapsed ∧
    ∀ limit, budget = some limit → (Number.real limit).lt elapsed = false

/-- The turn of rule `i` passes without an event: the rule is run, and in time. -/
def Passes (n i : Nat) : Prop := ¬ s.StopsBefore n i ∧ s.InTimeAfter budget n i

/-- The test before rule `i` is the first event of the unit. -/
def FirstStop (n i : Nat) : Prop := (∀ j < i, s.Passes budget n j) ∧ s.StopsBefore n i

/-- Exceeding the time limit after rule `i` is the first event of the unit. -/
def FirstOverrun (n i : Nat) : Prop :=
  (∀ j < i, s.Passes budget n j) ∧ ¬ s.StopsBefore n i ∧ s.OverrunsAfter budget n i

/-- The difference of any two readings can be taken. A clock that shows doubles only is of this
    kind, and so is one that shows integers only. -/
def Measurable : Prop := ∀ i j, ∃ d, (s.reading i).sub (s.reading j) = .ok d

/-- A clock that shows doubles, however large, always tells the time that has passed. -/
theorem measurable_of_real (h : ∀ i, ∃ x, s.reading i = .real x) : s.Measurable := by
  intro i j
  obtain ⟨x, hx⟩ := h i
  obtain ⟨y, hy⟩ := h j
  rw [hx, hy]
  exact ⟨.real (x - y), rfl⟩

theorem measurable_of_int (h : ∀ i, ∃ a, s.reading i = .int a) : s.Measurable := by
  intro i j
  obtain ⟨a, ha⟩ := h i
  obtain ⟨b, hb⟩ := h j
  rw [ha, hb]
  exact ⟨.int (a - b), rfl⟩

variable {s budget}

theorem Measurable.not_losesTrackAfter (h : s.Measurable) (n i : Nat) :
    ¬ s.LosesTrackAfter n i := by
  rintro ⟨o, ho⟩
  obtain ⟨d, hd⟩ := h (s.turn n i + s.testReadings) n
  rw [elapsedAfter, hd] at ho
  simp at ho

theorem InTimeAfter.not_overrunsAfter {n i : Nat} (h : s.InTimeAfter budget n i) :
    ¬ s.OverrunsAfter budget n i := by
  rintro ⟨elapsed, limit, helapsed, hbudget, hlt⟩
  obtain ⟨elapsed', helapsed', hle⟩ := h
  rw [helapsed] at helapsed'
  obtain rfl := Except.ok.inj helapsed'
  rw [hle limit hbudget] at hlt
  simp at hlt

theorem InTimeAfter.not_losesTrackAfter {n i : Nat} (h : s.InTimeAfter budget n i) :
    ¬ s.LosesTrackAfter n i := by
  rintro ⟨o, ho⟩
  obtain ⟨elapsed, helapsed, _⟩ := h
  rw [helapsed] at ho
  simp at ho

theorem FirstStop.not_passes {n i : Nat} (h : s.FirstStop budget n i) : ¬ s.Passes budget n i :=
  fun hpasses => hpasses.1 h.2

theorem FirstOverrun.not_passes {n i : Nat} (h : s.FirstOverrun budget n i) :
    ¬ s.Passes budget n i :=
  fun hpasses => hpasses.2.not_overrunsAfter h.2.2

/-- There is no more than one first event. -/
theorem eq_of_first_event {n i k : Nat} (hi : ∀ j < i, s.Passes budget n j)
    (hi' : ¬ s.Passes budget n i) (hk : ∀ j < k, s.Passes budget n j)
    (hk' : ¬ s.Passes budget n k) : i = k := by
  rcases Nat.lt_trichotomy i k with h | h | h
  · exact absurd (hk i h) hi'
  · exact h
  · exact absurd (hi k h) hk'

theorem FirstStop.not_firstOverrun {n i k : Nat} (h : s.FirstStop budget n k) :
    ¬ s.FirstOverrun budget n i := by
  intro h'
  obtain rfl := eq_of_first_event h.1 h.not_passes h'.1 h'.not_passes
  exact h'.2.1 h.2

theorem turn_succ (s : Schedule) (n i : Nat) :
    s.turn n (i + 1) = s.turn n i + s.testReadings + 1 := by
  unfold turn
  rw [Nat.succ_mul]
  omega

/-- The test before a rule tells whether it stops, and takes its readings if it does not. -/
theorem stopTest_of_stops {c : Nat} (h : s.Stops c) : (s.stopTest c).1 = true := by
  unfold stopTest
  by_cases hc : s.cancelled c = true
  · rw [if_pos hc]
  · rw [if_neg hc]
    obtain hc' | ⟨deadline, hdeadline, hle⟩ := h
    · exact absurd hc' hc
    · rw [hdeadline]
      exact hle

theorem stopTest_of_not_stops {c : Nat} (h : ¬ s.Stops c) :
    s.stopTest c = (false, c + s.testReadings) := by
  unfold stopTest testReadings
  have hc : ¬ s.cancelled c = true := fun hc => h (Or.inl hc)
  rw [if_neg hc]
  cases hdeadline : s.deadline with
  | none => rfl
  | some deadline =>
      have hle : deadline.le (s.reading c) = false := by
        rw [Bool.eq_false_iff]
        exact fun hle => h (Or.inr ⟨deadline, hdeadline, hle⟩)
      simp [hle]

end Schedule

/-! ## One turn -/

namespace Pass

variable (s : Schedule) (budget : Option Float) (m : Model)

/-- The findings and notices of several rules in front of a pass. -/
def afterAll (rules : RuleList) (p : Pass) : Pass :=
  rules.foldr (fun r p => after r.1 r.2 m p) p

@[simp] theorem afterAll_diagnostics (rules : RuleList) (p : Pass) :
    (afterAll m rules p).diagnostics
      = (rules.flatMap fun r => r.1.findings r.2 m) ++ p.diagnostics := by
  induction rules with
  | nil => rfl
  | cons r rest ih =>
      rw [List.flatMap_cons, List.append_assoc, ← ih]
      rfl

@[simp] theorem afterAll_halt (rules : RuleList) (p : Pass) :
    (afterAll m rules p).halt = p.halt := by
  induction rules with
  | nil => rfl
  | cons r rest ih => exact ih

theorem exceeded?_eq_some_iff (elapsed : Number) (limit : Float) :
    exceeded? budget elapsed = some limit ↔
      budget = some limit ∧ (Number.real limit).lt elapsed = true := by
  unfold exceeded?
  rw [Option.filter_eq_some_iff]

theorem exceeded?_eq_none_iff (elapsed : Number) :
    exceeded? budget elapsed = none ↔
      ∀ limit, budget = some limit → (Number.real limit).lt elapsed = false := by
  unfold exceeded?
  rw [Option.filter_eq_none_iff]
  simp

variable {s budget m}

theorem ofRules_cons_of_stops (budget : Option Float) (m : Model) (started : Number)
    (r : Rule × RuleSettings) (rest : RuleList) {c : Nat} (h : s.Stops c) :
    ∃ c', ofRules s budget m started (r :: rest) c = calledOff m.unit (r :: rest) c' := by
  have htest := Schedule.stopTest_of_stops h
  refine ⟨(s.stopTest c).2, ?_⟩
  rw [ofRules]
  split
  · next heq => rw [heq]
  · next heq =>
      rw [heq] at htest
      simp at htest

variable (s budget m) in
/-- What follows a rule that is done after `c` readings: the time is read, and if the unit is within
    its time limit the other rules are run. -/
def thenRest (started : Number) (rule : Rule) (rest : RuleList) (c : Nat) : Pass :=
  match (s.reading c).sub started with
  | .error o => halted o (c + 1)
  | .ok elapsed =>
    match exceeded? budget elapsed with
    | some limit => overran m.unit rule limit elapsed rest (c + 1)
    | none => ofRules s budget m started rest (c + 1)

variable {started : Number} {rule : Rule} {rest : RuleList} {c : Nat}

theorem thenRest_of_error {o : Overflow} (h : (s.reading c).sub started = .error o) :
    thenRest s budget m started rule rest c = halted o (c + 1) := by
  simp only [thenRest, h]

theorem thenRest_of_exceeded {elapsed : Number} {limit : Float}
    (h : (s.reading c).sub started = .ok elapsed) (hlimit : exceeded? budget elapsed = some limit) :
    thenRest s budget m started rule rest c = overran m.unit rule limit elapsed rest (c + 1) := by
  simp only [thenRest, h, hlimit]

theorem thenRest_of_inTime {elapsed : Number} (h : (s.reading c).sub started = .ok elapsed)
    (hlimit : exceeded? budget elapsed = none) :
    thenRest s budget m started rule rest c = ofRules s budget m started rest (c + 1) := by
  simp only [thenRest, h, hlimit]

/-- A test that does not stop leads to the rule. -/
theorem ofRules_cons_of_go {settings : RuleSettings} {c' : Nat} (h : s.stopTest c = (false, c')) :
    ofRules s budget m started ((rule, settings) :: rest) c
      = after rule settings m (thenRest s budget m started rule rest c') := by
  rw [ofRules, h]
  rfl

/-! ## The course of an analysis -/

variable (s budget m)

/-- What becomes of the analysis of a unit that is begun after `n` readings. In every case but the
    first there is an event, none comes before it, and what the rules before it have found stands in
    front. -/
inductive Course (rules : RuleList) (n : Nat) : Pass → Prop where
  | complete (h : ∀ i < rules.length, s.Passes budget n i) :
      Course rules n (afterAll m rules { readings := s.turn n rules.length })
  | calledOff (k c : Nat) (hk : k < rules.length) (h : s.FirstStop budget n k) :
      Course rules n (afterAll m (rules.take k) (.calledOff m.unit (rules.drop k) c))
  | overran (k c : Nat) (limit : Float) (elapsed : Number) (hk : k < rules.length)
      (h : s.FirstOverrun budget n k) (hlimit : budget = some limit)
      (helapsed : s.elapsedAfter n k = .ok elapsed) :
      Course rules n (afterAll m (rules.take (k + 1))
        (.overran m.unit rules[k].1 limit elapsed (rules.drop (k + 1)) c))
  | halted (k c : Nat) (o : Overflow) (hk : k < rules.length)
      (before : ∀ i < k, s.Passes budget n i) (h : s.LosesTrackAfter n k) :
      Course rules n (afterAll m (rules.take (k + 1)) (.halted o c))

variable {s budget m}

theorem afterAll_take_succ (rules : RuleList) (k : Nat) (hk : k < rules.length) (p : Pass) :
    afterAll m (rules.take (k + 1)) p
      = afterAll m (rules.take k) (after rules[k].1 rules[k].2 m p) := by
  rw [List.take_succ_eq_append_getElem hk]
  unfold afterAll
  rw [List.foldr_append]
  rfl

/-- Turns that pass without an event leave the analysis to the rest of the rules. -/
theorem ofRules_of_passes (rules : RuleList) (n k : Nat) (hk : k ≤ rules.length)
    (h : ∀ i < k, s.Passes budget n i) :
    ofRules s budget m (s.reading n) rules (s.turn n 0)
      = afterAll m (rules.take k)
          (ofRules s budget m (s.reading n) (rules.drop k) (s.turn n k)) := by
  induction k with
  | zero => rfl
  | succ k ih =>
      have hlt : k < rules.length := hk
      obtain ⟨hstop, elapsed, helapsed, hbudget⟩ := h k (Nat.lt_succ_self k)
      rw [ih (Nat.le_of_lt hlt) fun i hi => h i (Nat.lt_succ_of_lt hi),
        afterAll_take_succ rules k hlt, List.drop_eq_getElem_cons hlt,
        ofRules_cons_of_go (Schedule.stopTest_of_not_stops hstop),
        thenRest_of_inTime helapsed ((exceeded?_eq_none_iff budget elapsed).mpr hbudget),
        Schedule.turn_succ]

/-- Either all turns up to a number pass, or one of them is the first that does not. -/
theorem exists_first_event (s : Schedule) (budget : Option Float) (n count : Nat) :
    (∀ i < count, s.Passes budget n i) ∨
      ∃ k < count, (∀ i < k, s.Passes budget n i) ∧ ¬ s.Passes budget n k := by
  induction count with
  | zero => exact Or.inl fun i hi => absurd hi (Nat.not_lt_zero i)
  | succ count ih =>
      rcases ih with hall | ⟨k, hk, hbefore, hevent⟩
      · by_cases hlast : s.Passes budget n count
        · refine Or.inl fun i hi => ?_
          rcases Nat.lt_succ_iff_lt_or_eq.mp hi with hi | rfl
          · exact hall i hi
          · exact hlast
        · exact Or.inr ⟨count, Nat.lt_succ_self count, hall, hlast⟩
      · exact Or.inr ⟨k, Nat.lt_succ_of_lt hk, hbefore, hevent⟩

/-- Every analysis of a unit takes one of the courses. -/
theorem ofUnit_course (s : Schedule) (budget : Option Float) (rules : RuleList) (n : Nat)
    (m : Model) : Course s budget m rules n (ofUnit s budget rules n (.model m)) := by
  have hbegin : ofUnit s budget rules n (.model m)
      = ofRules s budget m (s.reading n) rules (s.turn n 0) := by
    simp [ofUnit, Schedule.turn]
  rw [hbegin]
  -- Up to the first event the turns are alike; the event itself decides how the analysis ends.
  rcases exists_first_event s budget n rules.length with hall | ⟨k, hk, hbefore, hevent⟩
  · rw [ofRules_of_passes rules n rules.length (Nat.le_refl _) hall, List.take_length,
      List.drop_length]
    exact Course.complete hall
  · rw [ofRules_of_passes rules n k (Nat.le_of_lt hk) hbefore]
    by_cases hstop : s.StopsBefore n k
    · rw [List.drop_eq_getElem_cons hk]
      obtain ⟨c, hc⟩ := ofRules_cons_of_stops budget m (s.reading n) rules[k]
        (rules.drop (k + 1)) hstop
      rw [hc, ← List.drop_eq_getElem_cons hk]
      exact Course.calledOff k c hk ⟨hbefore, hstop⟩
    · rw [List.drop_eq_getElem_cons hk,
        ofRules_cons_of_go (Schedule.stopTest_of_not_stops hstop), ← afterAll_take_succ rules k hk]
      cases helapsed : s.elapsedAfter n k with
      | error o =>
          rw [thenRest_of_error helapsed]
          exact Course.halted k _ o hk hbefore ⟨o, helapsed⟩
      | ok elapsed =>
          cases hexceeded : exceeded? budget elapsed with
          | some limit =>
              rw [thenRest_of_exceeded helapsed hexceeded]
              obtain ⟨hbudget, hlt⟩ := (exceeded?_eq_some_iff budget elapsed limit).mp hexceeded
              exact Course.overran k _ limit elapsed hk
                ⟨hbefore, hstop, elapsed, limit, helapsed, hbudget, hlt⟩ hbudget helapsed
          | none =>
              -- Without an event the turn would have passed.
              have hpass : s.Passes budget n k :=
                ⟨hstop, elapsed, helapsed, (exceeded?_eq_none_iff budget elapsed).mp hexceeded⟩
              exact absurd hpass hevent

/-- If the time that has passed can always be told, nothing brings the run to a halt. -/
theorem ofUnit_halt_eq_none (hclock : s.Measurable) (budget : Option Float) (rules : RuleList)
    (n : Nat) (u : Ingested) : (ofUnit s budget rules n u).halt = none := by
  cases u with
  | failure f => rfl
  | model m =>
      have hcourse := ofUnit_course s budget rules n m
      generalize ofUnit s budget rules n (.model m) = p at hcourse ⊢
      cases hcourse with
      | complete hall => rw [afterAll_halt]
      | calledOff k c hk h =>
          rw [afterAll_halt]
          rfl
      | overran k c limit elapsed hk h hlimit helapsed =>
          rw [afterAll_halt]
          rfl
      | halted k c o hk before h => exact absurd h (hclock.not_losesTrackAfter n k)

theorem ofUnits_cons_of_halt {rules : RuleList} {u : Ingested} {rest : List Ingested} {n : Nat}
    {o : Overflow} (h : (ofUnit s budget rules n u).halt = some o) :
    ofUnits s budget rules (u :: rest) n = ofUnit s budget rules n u := by
  have hsome : (ofUnit s budget rules n u).halt.isSome = true := by rw [h]; rfl
  rw [ofUnits]
  exact if_pos hsome

theorem ofUnits_cons_of_go {rules : RuleList} {u : Ingested} {rest : List Ingested} {n : Nat}
    (h : (ofUnit s budget rules n u).halt = none) :
    ofUnits s budget rules (u :: rest) n
      = (ofUnit s budget rules n u).append
          (ofUnits s budget rules rest (ofUnit s budget rules n u).readings) := by
  have hnone : ¬ (ofUnit s budget rules n u).halt.isSome = true := by simp [h]
  rw [ofUnits]
  exact if_neg hnone

/-! ## The analysis of a unit is a prefix of the full one -/

end Pass

/-- A diagnostic about the run that names the rules that have not been run. -/
structure Diagnostic.NamesSkipped (d : Diagnostic) (ids : List String) : Prop where
  aboutRun : d.isAboutRun = true
  skipped : d.extras.lookup "skipped_rules" = some (.texts ids)

theorem Diagnostic.namesSkipped_calledOff (unit : String) (ids : List String) :
    (Diagnostic.calledOff unit ids).NamesSkipped ids :=
  ⟨rfl, rfl⟩

theorem Diagnostic.namesSkipped_overran (unit rule : String) (limit : Float) (elapsed : Number)
    (ids : List String) : (Diagnostic.overran unit rule limit elapsed ids).NamesSkipped ids :=
  ⟨rfl, rfl⟩

namespace Pass

variable (s : Schedule) (budget : Option Float) (m : Model)

/-- The diagnostics `ds` of a unit are what the first `k` rules have found, and then a tail. -/
structure CutAfter (rules : RuleList) (n : Nat) (ds : List Diagnostic) (k : Nat)
    (tail : List Diagnostic) : Prop where
  le : k ≤ rules.length
  diagnostics : ds = ((rules.take k).flatMap fun r => r.1.findings r.2 m) ++ tail
  /-- While rules are left, the tail is one diagnostic that names them. -/
  left : k < rules.length → ∃ d, tail = [d] ∧ (d.rule = partialRule ∨ d.rule = timeoutRule) ∧
    d.NamesSkipped (RuleList.ids (rules.drop k))
  /-- When all rules have been run, the tail is empty or says that they took too long. -/
  done : k = rules.length → tail = [] ∨ ∃ d, tail = [d] ∧ d.rule = timeoutRule ∧ d.NamesSkipped []
  /-- No unit has taken too long before it has run a rule. -/
  pos : (∃ d ∈ tail, d.rule = timeoutRule) → 1 ≤ k
  /-- The tail is about the time limit exactly when the first event is that the limit is exceeded
      after some rule, which is then the last of the first `k`. -/
  overrun : ∀ i < rules.length,
    s.FirstOverrun budget n i ↔ k = i + 1 ∧ ∃ d ∈ tail, d.rule = timeoutRule
  /-- The tail is about calling the run off exactly when the first event is the test before some
      rule, which is then the one after the first `k`. -/
  stop : ∀ i < rules.length,
    s.FirstStop budget n i ↔ k = i ∧ ∃ d ∈ tail, d.rule = partialRule

variable {s budget m} {rules : RuleList} {n k : Nat}

theorem timeoutRule_ne_partialRule : timeoutRule ≠ partialRule := by decide

theorem cutAfter_complete (h : ∀ i < rules.length, s.Passes budget n i) (p : Pass)
    (hp : p.diagnostics = []) :
    CutAfter s budget m rules n (afterAll m rules p).diagnostics rules.length [] where
  le := Nat.le_refl _
  diagnostics := by simp [hp]
  left hlt := absurd hlt (Nat.lt_irrefl _)
  done _ := Or.inl rfl
  pos := by simp
  overrun i hi := iff_of_false (fun hfirst => hfirst.not_passes (h i hi)) (by simp)
  stop i hi := iff_of_false (fun hfirst => hfirst.not_passes (h i hi)) (by simp)

theorem cutAfter_calledOff (hk : k < rules.length) (h : s.FirstStop budget n k) (c : Nat) :
    CutAfter s budget m rules n
      (afterAll m (rules.take k) (.calledOff m.unit (rules.drop k) c)).diagnostics k
      [Diagnostic.calledOff m.unit (RuleList.ids (rules.drop k))] := by
  have htimeout : ¬ ∃ d ∈ [Diagnostic.calledOff m.unit (RuleList.ids (rules.drop k))],
      d.rule = timeoutRule := by
    rintro ⟨d, hd, hrule⟩
    obtain rfl := List.mem_singleton.mp hd
    exact timeoutRule_ne_partialRule hrule.symm
  refine ⟨Nat.le_of_lt hk, afterAll_diagnostics m _ _, ?_, ?_, ?_, ?_, ?_⟩
  · exact fun _ => ⟨_, rfl, Or.inl rfl, Diagnostic.namesSkipped_calledOff _ _⟩
  · exact fun heq => absurd hk (by omega)
  · exact fun h' => absurd h' htimeout
  · exact fun i _ => iff_of_false h.not_firstOverrun fun h' => htimeout h'.2
  · intro i _
    constructor
    · intro h'
      exact ⟨Schedule.eq_of_first_event h.1 h.not_passes h'.1 h'.not_passes,
        _, List.mem_singleton.mpr rfl, rfl⟩
    · rintro ⟨rfl, _⟩
      exact h

theorem cutAfter_overran (hk : k < rules.length) (h : s.FirstOverrun budget n k) (limit : Float)
    (elapsed : Number) (c : Nat) :
    CutAfter s budget m rules n
      (afterAll m (rules.take (k + 1))
        (.overran m.unit rules[k].1 limit elapsed (rules.drop (k + 1)) c)).diagnostics (k + 1)
      [Diagnostic.overran m.unit rules[k].1.id limit elapsed
        (RuleList.ids (rules.drop (k + 1)))] := by
  have hpartial : ¬ ∃ d ∈ [Diagnostic.overran m.unit rules[k].1.id limit elapsed
      (RuleList.ids (rules.drop (k + 1)))], d.rule = partialRule := by
    rintro ⟨d, hd, hrule⟩
    obtain rfl := List.mem_singleton.mp hd
    exact timeoutRule_ne_partialRule hrule
  refine ⟨hk, afterAll_diagnostics m _ _, ?_, ?_, ?_, ?_, ?_⟩
  · exact fun _ => ⟨_, rfl, Or.inr rfl, Diagnostic.namesSkipped_overran _ _ _ _ _⟩
  · intro heq
    have hids : RuleList.ids (rules.drop (k + 1)) = [] := by
      rw [heq, List.drop_length]
      rfl
    rw [hids]
    exact Or.inr ⟨_, rfl, rfl, Diagnostic.namesSkipped_overran _ _ _ _ _⟩
  · exact fun _ => by omega
  · intro i _
    constructor
    · intro h'
      have heq := Schedule.eq_of_first_event h.1 h.not_passes h'.1 h'.not_passes
      exact ⟨congrArg (· + 1) heq, _, List.mem_singleton.mpr rfl, rfl⟩
    · rintro ⟨heq, _⟩
      obtain rfl : k = i := Nat.succ.inj heq
      exact h
  · exact fun i _ => iff_of_false (fun h' => h'.not_firstOverrun h) fun h' => hpartial h'.2

/-- **Prefixes of an analysis.** An analysis comes to a result if the differences of the clock's
    readings can be taken. Its result is what the first rules have found, in order, and then a tail
    that names the others and tells which event has cut them off. -/
theorem ofUnit_prefix_of_rules (s : Schedule) (budget : Option Float) (rules : RuleList) (n : Nat)
    (m : Model) :
    (s.Measurable → (ofUnit s budget rules n (.model m)).halt = none) ∧
    ((ofUnit s budget rules n (.model m)).halt = none →
      ∃ k tail, CutAfter s budget m rules n (ofUnit s budget rules n (.model m)).diagnostics k
        tail) := by
  refine ⟨fun hclock => ofUnit_halt_eq_none hclock budget rules n _, ?_⟩
  have hcourse := ofUnit_course s budget rules n m
  generalize ofUnit s budget rules n (.model m) = p at hcourse ⊢
  intro hhalt
  cases hcourse with
  | complete hall => exact ⟨_, _, cutAfter_complete hall _ rfl⟩
  | calledOff k c hk h => exact ⟨_, _, cutAfter_calledOff hk h c⟩
  | overran k c limit elapsed hk h hlimit helapsed =>
      exact ⟨_, _, cutAfter_overran hk h limit elapsed c⟩
  | halted k c o hk before h => simp [halted] at hhalt

/-- A run that is called off after its second reading, on a clock that counts its readings. -/
def calledOffInBetween : Schedule where
  reading n := .int n
  cancelled n := decide (2 ≤ n)

/-- A rule that finds nothing. -/
def silent (id : String) : Rule × RuleSettings :=
  ({ id, title := "", severity := "low", confidence := "low", fix := ""
     evaluate := fun _ _ => .ok [] },
   { rule := id })

/-- In such a run the second of two silent rules is skipped, and the diagnostic says so. -/
theorem ofUnit_calledOffInBetween :
    ∃ d, (ofUnit calledOffInBetween none [silent "A", silent "B"] 0
        (.model { unit := "empty" })).diagnostics = [d] ∧
      d.rule = partialRule ∧ d.NamesSkipped ["B"] := by
  have hfirst : calledOffInBetween.FirstStop none 0 1 := by
    refine ⟨fun j hj => ?_, Or.inl rfl⟩
    obtain rfl := Nat.lt_one_iff.mp hj
    refine ⟨?_, .int 1, rfl, nofun⟩
    rintro (hcancelled | ⟨_, hdeadline, _⟩)
    · exact absurd hcancelled (by decide)
    · exact absurd hdeadline nofun
  obtain ⟨hhalt, hprefix⟩ := ofUnit_prefix_of_rules calledOffInBetween none
    [silent "A", silent "B"] 0 { unit := "empty" }
  obtain ⟨k, tail, hcut⟩ := hprefix (hhalt (Schedule.measurable_of_int _ fun n => ⟨n, rfl⟩))
  obtain ⟨rfl, d, hd, hrule⟩ := (hcut.stop 1 (by decide)).mp hfirst
  obtain ⟨d', rfl, _, hnames⟩ := hcut.left (by decide)
  obtain rfl := List.mem_singleton.mp hd
  exact ⟨d, hcut.diagnostics, hrule, hnames⟩

end Pass

end Hazard
