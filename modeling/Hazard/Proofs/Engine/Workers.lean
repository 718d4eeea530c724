import Hazard.Proofs.Engine.Interruption

set_option autoImplicit false

/-! # Units side by side

With several workers the units are analysed at the same time. The workers share the clock and the
cancellation, and which reading a worker gets depends on how their turns fall. What a worker can
tell apart is only what it sees itself: the readings that it takes, one after the other, and whether
the run has been called off each time it asks. So a run with workers is given by one schedule for
each unit, of which the deadlines agree (`Pass.ofShares`).

`Pass.exists_serial` says that such a run leaves the same behind as some run without workers: the
readings that the workers take are shown to one unit after the other. What holds of the units in a
row under every schedule thus holds of the units side by side, however their turns fall. -/

namespace Hazard

namespace Schedule

/-- What one schedule shows between `first` and `last` readings, the other one shows `d` readings
    later. It does not matter whether the run has been called off at the first of these readings,
    since that is not asked before a unit is begun. -/
structure ShownLater (s t : Schedule) (d first last : Nat) : Prop where
  deadline : t.deadline = s.deadline
  reading : ∀ i, first ≤ i → i < last → t.reading (i + d) = s.reading i
  cancelled : ∀ i, first < i → i ≤ last → t.cancelled (i + d) = s.cancelled i

variable {s t : Schedule} {d : Nat}

theorem ShownLater.mono {first last first' last' : Nat} (h : s.ShownLater t d first last)
    (hfirst : first ≤ first') (hlast : last' ≤ last) : s.ShownLater t d first' last' where
  deadline := h.deadline
  reading i hi hi' := h.reading i (by omega) (by omega)
  cancelled i hi hi' := h.cancelled i (by omega) (by omega)

theorem le_stopTest (s : Schedule) (c : Nat) : c ≤ (s.stopTest c).2 := by
  unfold stopTest
  split
  · exact Nat.le_refl c
  · split
    · exact Nat.le_refl c
    · exact Nat.le_succ c

theorem ShownLater.stopTest_eq {c c' : Nat} {stopped : Bool} (h : s.ShownLater t d c c')
    (htest : s.stopTest (c + 1) = (stopped, c')) : t.stopTest (c + 1 + d) = (stopped, c' + d) := by
  have hle : c + 1 ≤ c' := by
    have hle := s.le_stopTest (c + 1)
    rw [htest] at hle
    exact hle
  have hcancelled := h.cancelled (c + 1) (Nat.lt_succ_self c) hle
  unfold stopTest at htest ⊢
  rw [hcancelled, h.deadline]
  split at htest
  · next hc =>
      obtain ⟨rfl, rfl⟩ := Prod.mk.inj htest
      rw [if_pos hc]
  · next hc =>
      rw [if_neg hc]
      cases hdeadline : s.deadline with
      | none =>
          rw [hdeadline] at htest
          obtain ⟨rfl, rfl⟩ := Prod.mk.inj htest
          rfl
      | some deadline =>
          rw [hdeadline] at htest
          obtain ⟨rfl, rfl⟩ := Prod.mk.inj htest
          have hreading := h.reading (c + 1) (Nat.le_succ c) (Nat.lt_succ_self _)
          simp only [hreading, Nat.add_right_comm _ d 1]

/-- The first `n` readings of a schedule, and then all of another one. -/
def followedBy (s t : Schedule) (n : Nat) : Schedule where
  reading i := if i < n then s.reading i else t.reading (i - n)
  cancelled i := if i ≤ n then s.cancelled i else t.cancelled (i - n)
  deadline := s.deadline

theorem followedBy_shows_first (s t : Schedule) (n : Nat) :
    s.ShownLater (s.followedBy t n) 0 0 n where
  deadline := rfl
  reading _ _ hi := if_pos hi
  cancelled _ _ hi := if_pos hi

theorem followedBy_shows_second (s t : Schedule) (n last : Nat) (h : s.deadline = t.deadline) :
    t.ShownLater (s.followedBy t n) n 0 last where
  deadline := h
  reading i _ _ := by
    have hi : ¬ i + n < n := by omega
    simp only [followedBy, if_neg hi, Nat.add_sub_cancel]
  cancelled i hi _ := by
    have hi : ¬ i + n ≤ n := by omega
    simp only [followedBy, if_neg hi, Nat.add_sub_cancel]

end Schedule

namespace Pass

/-! ## Passes and when they are made -/

/-- The same pass, made `d` readings later. -/
def later (d : Nat) (p : Pass) : Pass := { p with readings := p.readings + d }

variable {s t : Schedule} {d : Nat} (budget : Option Float)

theorem lt_readings_thenRest {m : Model} {started : Number} {rule : Rule} {rest : RuleList}
    {c : Nat} (h : c + 1 ≤ (ofRules s budget m started rest (c + 1)).readings) :
    c < (thenRest s budget m started rule rest c).readings := by
  unfold thenRest
  split
  · exact Nat.lt_succ_self c
  · split
    · exact Nat.lt_succ_self c
    · exact h

theorem le_readings_ofRules (s : Schedule) (m : Model) (started : Number) (rules : RuleList)
    (c : Nat) : c ≤ (ofRules s budget m started rules c).readings := by
  induction rules generalizing c with
  | nil => exact Nat.le_refl c
  | cons r rest ih =>
      have htest := s.le_stopTest c
      cases heq : s.stopTest c with
      | mk stopped c' =>
          rw [heq] at htest
          cases stopped with
          | true =>
              rw [ofRules, heq]
              exact htest
          | false =>
              rw [ofRules_cons_of_go heq]
              exact Nat.le_of_lt (Nat.lt_of_le_of_lt htest (lt_readings_thenRest budget (ih _)))

theorem le_readings_ofUnit (s : Schedule) (rules : RuleList) (n : Nat) (u : Ingested) :
    n ≤ (ofUnit s budget rules n u).readings := by
  cases u with
  | failure f => exact Nat.le_refl n
  | model m =>
      have hrules := le_readings_ofRules budget s m (s.reading n) rules (n + 1)
      exact Nat.le_trans (Nat.le_succ n) hrules

theorem le_readings_ofUnits (s : Schedule) (rules : RuleList) (units : List Ingested) (n : Nat) :
    n ≤ (ofUnits s budget rules units n).readings := by
  induction units generalizing n with
  | nil => exact Nat.le_refl n
  | cons u rest ih =>
      have hfirst := le_readings_ofUnit budget s rules n u
      rw [ofUnits]
      split
      · exact hfirst
      · exact Nat.le_trans hfirst (ih _)

theorem thenRest_later (m : Model) (started : Number) (rule : Rule) (rest : RuleList) (c : Nat)
    (h : s.ShownLater t d c (thenRest s budget m started rule rest c).readings)
    (hrest : s.ShownLater t d c (ofRules s budget m started rest (c + 1)).readings →
      ofRules t budget m started rest (c + 1 + d)
        = (ofRules s budget m started rest (c + 1)).later d) :
    thenRest t budget m started rule rest (c + d)
      = (thenRest s budget m started rule rest c).later d := by
  have hlt : c < (thenRest s budget m started rule rest c).readings :=
    lt_readings_thenRest budget (le_readings_ofRules budget s m started rest (c + 1))
  have hreading : t.reading (c + d) = s.reading c := h.reading c (Nat.le_refl c) hlt
  cases hsub : (s.reading c).sub started with
  | error o =>
      rw [thenRest_of_error hsub, thenRest_of_error (hreading ▸ hsub), Nat.add_right_comm c d 1]
      rfl
  | ok elapsed =>
      cases hexceeded : exceeded? budget elapsed with
      | some limit =>
          rw [thenRest_of_exceeded hsub hexceeded, thenRest_of_exceeded (hreading ▸ hsub) hexceeded,
            Nat.add_right_comm c d 1]
          rfl
      | none =>
          rw [thenRest_of_inTime hsub hexceeded] at h ⊢
          rw [thenRest_of_inTime (hreading ▸ hsub) hexceeded, Nat.add_right_comm c d 1]
          exact hrest h

/-- The rules leave the same behind under a schedule that shows the same later. -/
theorem ofRules_later (m : Model) (started : Number) (rules : RuleList) (c : Nat)
    (h : s.ShownLater t d c (ofRules s budget m started rules (c + 1)).readings) :
    ofRules t budget m started rules (c + 1 + d)
      = (ofRules s budget m started rules (c + 1)).later d := by
  induction rules generalizing c with
  | nil => rfl
  | cons r rest ih =>
      have htest := s.le_stopTest (c + 1)
      cases heq : s.stopTest (c + 1) with
      | mk stopped c' =>
          rw [heq] at htest
          cases stopped with
          | true =>
              have hend : ofRules s budget m started (r :: rest) (c + 1)
                  = calledOff m.unit (r :: rest) c' := by rw [ofRules, heq]
              rw [hend] at h ⊢
              rw [ofRules, h.stopTest_eq heq]
              rfl
          | false =>
              rw [ofRules_cons_of_go heq] at h ⊢
              have hlt : c' < (thenRest s budget m started r.1 rest c').readings :=
                lt_readings_thenRest budget (le_readings_ofRules budget s m started rest (c' + 1))
              have hstop := (h.mono (Nat.le_refl c) (Nat.le_of_lt hlt)).stopTest_eq heq
              rw [ofRules_cons_of_go hstop]
              have hrest := thenRest_later budget m started r.1 rest c'
                (h.mono (Nat.le_trans (Nat.le_succ c) htest) (Nat.le_refl _)) (ih c')
              rw [hrest]
              rfl

theorem ofUnit_later (rules : RuleList) (n : Nat) (u : Ingested)
    (h : s.ShownLater t d n (ofUnit s budget rules n u).readings) :
    ofUnit t budget rules (n + d) u = (ofUnit s budget rules n u).later d := by
  cases u with
  | failure f => rfl
  | model m =>
      have hle := le_readings_ofRules budget s m (s.reading n) rules (n + 1)
      have hstarted : t.reading (n + d) = s.reading n := h.reading n (Nat.le_refl n) hle
      simp only [ofUnit] at h ⊢
      rw [hstarted, Nat.add_right_comm n d 1]
      exact ofRules_later budget m (s.reading n) rules n h

theorem ofUnits_later (rules : RuleList) (units : List Ingested) (n : Nat)
    (h : s.ShownLater t d n (ofUnits s budget rules units n).readings) :
    ofUnits t budget rules units (n + d) = (ofUnits s budget rules units n).later d := by
  induction units generalizing n with
  | nil => rfl
  | cons u rest ih =>
      cases hhalt : (ofUnit s budget rules n u).halt with
      | some o =>
          rw [ofUnits_cons_of_halt hhalt] at h ⊢
          have hfirst := ofUnit_later budget rules n u h
          rw [ofUnits_cons_of_halt (o := o) (by rw [hfirst]; exact hhalt), hfirst]
      | none =>
          rw [ofUnits_cons_of_go hhalt] at h ⊢
          have hle := le_readings_ofUnits budget s rules rest (ofUnit s budget rules n u).readings
          have hfirst := ofUnit_later budget rules n u (h.mono (Nat.le_refl n) hle)
          have hrest := ih _ (h.mono (le_readings_ofUnit budget s rules n u) (Nat.le_refl _))
          rw [ofUnits_cons_of_go (by rw [hfirst]; exact hhalt), hfirst]
          rw [show ((ofUnit s budget rules n u).later d).readings
            = (ofUnit s budget rules n u).readings + d from rfl, hrest]
          rfl

/-! ## Workers -/

/-- What comes of units of which each has its own schedule. The readings are counted together. -/
def ofShares (rules : RuleList) : List (Schedule × Ingested) → Pass
  | [] => { readings := 0 }
  | (s, u) :: rest =>
    let first := ofUnit s budget rules 0 u
    if first.halt.isSome then first
    else first.append ((ofShares rules rest).later first.readings)

theorem ofShares_cons_of_halt {rules : RuleList} {s : Schedule} {u : Ingested}
    {rest : List (Schedule × Ingested)} {o : Overflow}
    (h : (ofUnit s budget rules 0 u).halt = some o) :
    ofShares budget rules ((s, u) :: rest) = ofUnit s budget rules 0 u := by
  have hsome : (ofUnit s budget rules 0 u).halt.isSome = true := by rw [h]; rfl
  rw [ofShares]
  exact if_pos hsome

theorem ofShares_cons_of_go {rules : RuleList} {s : Schedule} {u : Ingested}
    {rest : List (Schedule × Ingested)} (h : (ofUnit s budget rules 0 u).halt = none) :
    ofShares budget rules ((s, u) :: rest)
      = (ofUnit s budget rules 0 u).append
          ((ofShares budget rules rest).later (ofUnit s budget rules 0 u).readings) := by
  have hnone : ¬ (ofUnit s budget rules 0 u).halt.isSome = true := by simp [h]
  rw [ofShares]
  exact if_neg hnone

/-- If each worker can always tell the time that has passed, nothing brings the run to a halt. -/
theorem ofShares_halt_eq_none (rules : RuleList) (shares : List (Schedule × Ingested))
    (hclocks : ∀ share ∈ shares, share.1.Measurable) :
    (ofShares budget rules shares).halt = none := by
  induction shares with
  | nil => rfl
  | cons share rest ih =>
      have hfirst := ofUnit_halt_eq_none (hclocks share List.mem_cons_self) budget rules 0 share.2
      rw [ofShares_cons_of_go budget hfirst]
      exact ih fun share' h => hclocks share' (List.mem_cons_of_mem _ h)

/-- **Workers add nothing.** Whatever the workers see, there is a schedule under which the units in
    a row come to the same. -/
theorem exists_serial (rules : RuleList) (deadline : Option Number)
    (shares : List (Schedule × Ingested)) (h : ∀ share ∈ shares, share.1.deadline = deadline) :
    ∃ s : Schedule, s.deadline = deadline ∧
      ofUnits s budget rules (shares.map (·.2)) 0 = ofShares budget rules shares := by
  induction shares with
  | nil => exact ⟨{ Schedule.still with deadline }, rfl, rfl⟩
  | cons share rest ih =>
      obtain ⟨t, ht, hrest⟩ := ih fun share' hshare' => h share' (List.mem_cons_of_mem _ hshare')
      obtain ⟨s, u⟩ := share
      have hs : s.deadline = deadline := h (s, u) List.mem_cons_self
      -- The first unit sees what is its own, and the others see the rest, which is theirs.
      have hfirst := ofUnit_later budget rules 0 u
        (s.followedBy_shows_first t (ofUnit s budget rules 0 u).readings)
      have hothers := ofUnits_later budget rules (rest.map (·.2)) 0
        (s.followedBy_shows_second t (ofUnit s budget rules 0 u).readings
          (ofUnits t budget rules (rest.map (·.2)) 0).readings (hs.trans ht.symm))
      rw [Nat.zero_add, hrest] at hothers
      refine ⟨s.followedBy t (ofUnit s budget rules 0 u).readings, hs, ?_⟩
      have hfirst' : ofUnit (s.followedBy t (ofUnit s budget rules 0 u).readings) budget rules 0 u
          = ofUnit s budget rules 0 u := hfirst
      rw [List.map_cons, ofShares]
      cases hhalt : (ofUnit s budget rules 0 u).halt with
      | some o =>
          rw [ofUnits_cons_of_halt (o := o) (by rw [hfirst']; exact hhalt), hfirst']
          rfl
      | none =>
          rw [ofUnits_cons_of_go (by rw [hfirst']; exact hhalt), hfirst', hothers]
          rfl

end Pass

end Hazard
