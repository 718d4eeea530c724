import Hazard.FlowGraph.Dominance
import Hazard.Proofs.FlowGraph.Path
import Mathlib.Data.List.Sort
import Mathlib.Logic.Function.Iterate

set_option autoImplicit false

/-! # Dominators are what every path visits

The narrowing of `FlowGraph.narrow` is a search for a greatest fixed point: the candidates of a
block only ever shrink, and a candidate may go only if some path avoids it. Three facts about the
table and the waiting blocks hold from the first turn to the last and carry the whole argument
(`Narrowing`):

* what every path to a block visits is still a candidate of the block,
* what survives the candidates of the predecessors is still a candidate of the block,
* a block that is not waiting has only candidates that survive.

When nothing is waiting any more, the last fact makes every candidate a dominator, by induction on
the path (`Narrowing.dominates_of_mem`), and the first one makes every dominator a candidate.

The second fact says that narrowing a block is the same as working out its set afresh, as its own
number together with what all predecessors have in common (`FlowGraph.recomputed`). So the narrowing
is the classical work list of `FlowGraph.turn`, and that work list comes to an end with the same
table whatever order the blocks wait in at first. -/

namespace Hazard

/-! ## Tables -/

namespace DominatorTable

variable (t : DominatorTable)

theorem lookup_eq_none_of {n : Int} (h : n ∉ t.map Prod.fst) : t.lookup n = none := by
  rw [List.lookup_eq_none_iff]
  intro row hrow
  have hne : n ≠ row.1 := fun heq => h (heq ▸ List.mem_map_of_mem hrow)
  simpa using hne

theorem lookup_eq_some_of {n : Int} (h : n ∈ t.map Prod.fst) : t.lookup n = some (t.of n) := by
  obtain ⟨row, hrow, rfl⟩ := List.mem_map.mp h
  have hsome : (t.lookup row.1).isSome = true := by
    rw [List.lookup_isSome_iff]
    exact ⟨row, hrow, by simp⟩
  obtain ⟨doms, hdoms⟩ := Option.isSome_iff_exists.mp hsome
  rw [of, hdoms, Option.getD_some]

theorem of_eq_nil {n : Int} (h : n ∉ t.map Prod.fst) : t.of n = [] := by
  rw [of, t.lookup_eq_none_of h, Option.getD_none]

theorem map_fst_set (n : Int) (doms : List Int) : (t.set n doms).map Prod.fst = t.map Prod.fst := by
  induction t with
  | nil => rfl
  | cons row rest ih =>
      rw [set]
      split
      · rfl
      · rw [List.map_cons, List.map_cons, ih]

theorem of_set_self {n : Int} (h : n ∈ t.map Prod.fst) (doms : List Int) :
    (t.set n doms).of n = doms := by
  induction t with
  | nil => simp at h
  | cons row rest ih =>
      obtain ⟨m, old⟩ := row
      rw [set]
      by_cases hm : m = n
      · subst hm
        simp [of]
      · have hrest : n ∈ rest.map Prod.fst := by
          simpa [Ne.symm hm] using h
        have hnm : (n == m) = false := by simpa using Ne.symm hm
        rw [if_neg (by simpa using hm), of, List.lookup_cons, hnm]
        exact ih hrest

theorem of_set_ne {n m : Int} (h : m ≠ n) (doms : List Int) : (t.set n doms).of m = t.of m := by
  induction t with
  | nil => rfl
  | cons row rest ih =>
      obtain ⟨k, old⟩ := row
      rw [set]
      by_cases hk : k = n
      · subst hk
        have hmk : (m == k) = false := by simpa using h
        simp [of, List.lookup_cons, hmk]
      · rw [if_neg (by simpa using hk)]
        simp only [of, List.lookup_cons] at ih ⊢
        split
        · rfl
        · exact ih

/-- The candidates of a table that lists blocks with what a function gives for them. -/
theorem of_map {blocks : List Int} (candidates : Int → List Int) {n : Int} (h : n ∈ blocks) :
    of (blocks.map fun m => (m, candidates m)) n = candidates n := by
  induction blocks with
  | nil => simp at h
  | cons m rest ih =>
      by_cases hnm : n = m
      · subst hnm
        simp [of]
      · have hbeq : (n == m) = false := by simpa using hnm
        simp only [List.map_cons, of, List.lookup_cons, hbeq]
        exact ih (by simpa [hnm] using h)

/-- A table that has every block once is given by its blocks and their candidates. -/
theorem eq_map_of (h : (t.map Prod.fst).Nodup) :
    t = (t.map Prod.fst).map fun n => (n, t.of n) := by
  induction t with
  | nil => rfl
  | cons row rest ih =>
      obtain ⟨m, doms⟩ := row
      rw [List.map_cons, List.nodup_cons] at h
      have hhead : of ((m, doms) :: rest) m = doms := by simp [of]
      have htail : ∀ n ∈ rest.map Prod.fst, of ((m, doms) :: rest) n = of rest n := by
        intro n hn
        have hnm : (n == m) = false := by
          have hne : n ≠ m := fun heq => h.1 (heq ▸ hn)
          simpa using hne
        simp only [of, List.lookup_cons, hnm]
      rw [List.map_cons, List.map_cons, hhead]
      refine congrArg ((m, doms) :: ·) ?_
      conv_lhs => rw [ih h.2]
      exact List.map_congr_left fun n hn => by rw [htail n hn]

theorem of_eq_of_mem (h : (t.map Prod.fst).Nodup) {n : Int} {doms : List Int}
    (hrow : (n, doms) ∈ t) : t.of n = doms := by
  rw [t.eq_map_of h] at hrow
  obtain ⟨m, _, heq⟩ := List.mem_map.mp hrow
  obtain ⟨rfl, rfl⟩ := Prod.mk.inj heq
  rfl

end DominatorTable

namespace FlowGraph

variable (g : FlowGraph)

/-! ## Dominance and survival -/

/-- Every path from the entry to `n` visits `d`. -/
def Dominates (d n : Int) : Prop := ∀ path, g.Path g.entry n path → d ∈ path

/-- A dominator of a block other than itself dominates the predecessors of the block. -/
theorem Dominates.of_successor {g : FlowGraph} {d n p : Int} (h : g.Dominates d n) (hne : d ≠ n)
    (edge : n ∈ g.successors p) : g.Dominates d p := by
  intro path hpath
  rcases List.mem_append.mp (h (path ++ [n]) (hpath.step edge)) with hd | hd
  · exact hd
  · exact absurd (List.mem_singleton.mp hd) hne

/-- A block is a dominator of `n` as far as the candidates of the predecessors of `n` tell: it is
    `n` itself, or a candidate of every predecessor that can be reached. -/
def Survives (t : DominatorTable) (d n : Int) : Prop :=
  d = n ∨ ∀ p, n ∈ g.successors p → g.Reachable p → d ∈ t.of p

theorem survives_iff {t : DominatorTable} (hkeys : t.map Prod.fst = g.reachable) (n d : Int) :
    survives (g.incoming t n) n d = true ↔ g.Survives t d n := by
  unfold survives incoming Survives
  rw [Bool.or_eq_true, beq_iff_eq, List.all_eq_true]
  refine or_congr_right ⟨?_, ?_⟩
  · intro h p hp hreach
    have hkey : p ∈ t.map Prod.fst := hkeys ▸ (g.mem_reachable_iff p).mpr hreach
    have hset := h (Std.HashSet.ofList (t.of p)) (List.mem_filterMap.mpr
      ⟨p, (g.mem_predecessors_iff p n).mpr hp, by rw [t.lookup_eq_some_of hkey]; rfl⟩)
    rwa [Std.HashSet.contains_ofList, List.contains_iff_mem] at hset
  · intro h set hset
    obtain ⟨p, hp, hmap⟩ := List.mem_filterMap.mp hset
    obtain ⟨doms, hdoms, rfl⟩ := Option.map_eq_some_iff.mp hmap
    by_cases hkey : p ∈ t.map Prod.fst
    · rw [t.lookup_eq_some_of hkey] at hdoms
      rw [Std.HashSet.contains_ofList, List.contains_iff_mem, ← Option.some.inj hdoms]
      exact h p ((g.mem_predecessors_iff p n).mp hp) ((g.mem_reachable_iff p).mp (hkeys ▸ hkey))
    · rw [t.lookup_eq_none_of hkey] at hdoms
      simp at hdoms

/-- A reachable block other than the entry has a reachable predecessor. -/
theorem Reachable.exists_predecessor {g : FlowGraph} {n : Int} (h : g.Reachable n)
    (hne : n ≠ g.entry) : ∃ p, g.Reachable p ∧ n ∈ g.successors p := by
  obtain ⟨path, hpath⟩ := h
  cases hpath with
  | start _ => exact absurd rfl hne
  | @step p _ before hbefore edge => exact ⟨p, ⟨before, hbefore⟩, edge⟩

/-! ## The work list -/

/-- The candidates of every block before the first turn. -/
def firstCandidates : DominatorTable :=
  g.reachable.map fun n => (n, if n = g.entry then [n] else g.reachable)

/-- The set of a block worked out afresh: the block itself, and what all its predecessors have in
    common, which is nothing when there are none. -/
def recomputed (t : DominatorTable) (n : Int) : List Int :=
  let incoming := g.incoming t n
  g.reachable.filter fun d => d == n || (!incoming.isEmpty && incoming.all (·.contains d))

/-- One turn of the work list. The set of the first waiting block is worked out afresh; if that
    changes it, the successors of the block wait again, except for the entry and for those that are
    waiting already. -/
def turn : DominatorTable × List Int → DominatorTable × List Int
  | (t, []) => (t, [])
  | (t, n :: rest) =>
    if g.recomputed t n = t.of n then (t, rest)
    else
      (t.set n (g.recomputed t n),
        rest ++ novel id rest ((g.successors n).filter (· ≠ g.entry)))

/-- What holds of the table and the waiting blocks between two turns. -/
structure Narrowing (t : DominatorTable) (waiting : List Int) : Prop where
  keys : t.map Prod.fst = g.reachable
  ascending : ∀ n, (t.of n).Pairwise (· < ·)
  within : ∀ n, ∀ d ∈ t.of n, g.Reachable d
  entry : ∀ d ∈ t.of g.entry, d = g.entry
  waits : ∀ n ∈ waiting, g.Reachable n ∧ n ≠ g.entry
  dominators : ∀ n d, g.Reachable n → g.Dominates d n → d ∈ t.of n
  survivors : ∀ n d, g.Reachable n → n ≠ g.entry → g.Survives t d n → d ∈ t.of n
  settled : ∀ n, n ≠ g.entry → n ∉ waiting → ∀ d ∈ t.of n, g.Survives t d n

namespace Narrowing

variable {g} {t : DominatorTable} {waiting rest : List Int} {n : Int}

theorem key_mem (h : g.Narrowing t waiting) (hn : g.Reachable n) : n ∈ t.map Prod.fst :=
  h.keys ▸ (g.mem_reachable_iff n).mpr hn

/-- A dominator survives the narrowing of its block. -/
theorem survives_of_dominates (h : g.Narrowing t waiting) {d : Int} (hd : g.Dominates d n) :
    g.Survives t d n := by
  by_cases hdn : d = n
  · exact Or.inl hdn
  · exact Or.inr fun p edge hp => h.dominators p d hp (hd.of_successor hdn edge)

/-- What becomes of the candidates when one block is narrowed. -/
theorem mem_of_set_iff (h : g.Narrowing t waiting) (hn : g.Reachable n) (m d : Int) :
    d ∈ (t.set n ((t.of n).filter (survives (g.incoming t n) n))).of m ↔
      d ∈ t.of m ∧ (m = n → g.Survives t d n) := by
  by_cases hmn : m = n
  · subst hmn
    rw [t.of_set_self (h.key_mem hn), List.mem_filter, g.survives_iff h.keys]
    simp
  · rw [t.of_set_ne hmn]
    simp [hmn]

/-- Narrowing a block is working out its set afresh. -/
theorem recomputed_eq (h : g.Narrowing t waiting) (hn : g.Reachable n) (hne : n ≠ g.entry) :
    g.recomputed t n = (t.of n).filter (survives (g.incoming t n) n) := by
  -- With a reachable predecessor the intersection is not the empty one, which counts as nothing.
  obtain ⟨p, hp, edge⟩ := hn.exists_predecessor hne
  have hfilled : (g.incoming t n).isEmpty = false := by
    have hmem : Std.HashSet.ofList (t.of p) ∈ g.incoming t n := List.mem_filterMap.mpr
      ⟨p, (g.mem_predecessors_iff p n).mpr edge, by rw [t.lookup_eq_some_of (h.key_mem hp)]; rfl⟩
    exact List.isEmpty_eq_false_iff.mpr (List.ne_nil_of_mem hmem)
  have hsurvives : g.recomputed t n = g.reachable.filter (survives (g.incoming t n) n) := by
    simp only [recomputed, hfilled, Bool.not_false, Bool.true_and]
    rfl
  rw [hsurvives]
  refine List.Pairwise.eq_of_mem_iff (r := (· < ·))
    (g.numbers_ascending.filter _ |>.filter _) ((h.ascending n).filter _) fun d => ?_
  rw [List.mem_filter, List.mem_filter, g.survives_iff h.keys, g.mem_reachable_iff]
  constructor
  · rintro ⟨_, hd⟩
    exact ⟨h.survivors n d hn hne hd, hd⟩
  · rintro ⟨hmem, hd⟩
    exact ⟨h.within n d hmem, hd⟩

/-- A block whose candidates all survive is settled and need not wait. -/
theorem skip (h : g.Narrowing t (n :: rest))
    (hkept : (t.of n).filter (survives (g.incoming t n) n) = t.of n) : g.Narrowing t rest := by
  refine { h with waits := fun m hm => h.waits m (List.mem_cons_of_mem _ hm), settled := ?_ }
  intro m hentry hm d hd
  by_cases hmn : m = n
  · subst hmn
    rw [← hkept, List.mem_filter, g.survives_iff h.keys] at hd
    exact hd.2
  · exact h.settled m hentry (by simp [hmn, hm]) d hd

/-- Narrowing a block keeps the invariant when the successors of the block wait from then on. -/
theorem shrink (h : g.Narrowing t (n :: rest)) :
    g.Narrowing (t.set n ((t.of n).filter (survives (g.incoming t n) n)))
      (rest ++ novel id rest ((g.successors n).filter (· ≠ g.entry))) := by
  obtain ⟨hn, hne⟩ := h.waits n List.mem_cons_self
  have hmem := h.mem_of_set_iff hn
  refine ⟨?_, ?_, ?_, ?_, ?_, ?_, ?_, ?_⟩
  · rw [t.map_fst_set]
    exact h.keys
  · intro m
    by_cases hmn : m = n
    · subst hmn
      rw [t.of_set_self (h.key_mem hn)]
      exact (h.ascending m).filter _
    · rw [t.of_set_ne hmn]
      exact h.ascending m
  · intro m d hd
    exact h.within m d ((hmem m d).mp hd).1
  · intro d hd
    exact h.entry d ((hmem g.entry d).mp hd).1
  · intro m hm
    rcases List.mem_append.mp hm with hm | hm
    · exact h.waits m (List.mem_cons_of_mem _ hm)
    · obtain ⟨edge, hentry⟩ := List.mem_filter.mp (mem_of_mem_novel hm).1
      exact ⟨hn.step edge, by simpa using hentry⟩
  · intro m d hm hd
    refine (hmem m d).mpr ⟨h.dominators m d hm hd, ?_⟩
    rintro rfl
    exact h.survives_of_dominates hd
  · intro m d hm hentry hd
    -- Candidates only shrink, so what survives now survived before.
    have hbefore : g.Survives t d m :=
      hd.imp id fun hpred p edge hp => ((hmem p d).mp (hpred p edge hp)).1
    refine (hmem m d).mpr ⟨h.survivors m d hm hentry hbefore, ?_⟩
    rintro rfl
    exact hbefore
  · intro m hentry hm d hd
    rw [List.mem_append, not_or] at hm
    -- A successor of the narrowed block is waiting, so `m` is none.
    have hedge : m ∉ g.successors n := by
      intro edge
      have haffected : m ∈ (g.successors n).filter (· ≠ g.entry) :=
        List.mem_filter.mpr ⟨edge, by simpa using hentry⟩
      rcases key_mem_or_mem_novel id rest _ m haffected with hrest | hnovel
      · exact hm.1 hrest
      · rw [List.map_id] at hnovel
        exact hm.2 hnovel
    obtain ⟨hold, hself⟩ := (hmem m d).mp hd
    have hbefore : g.Survives t d m := by
      by_cases hmn : m = n
      · subst hmn
        exact hself rfl
      · exact h.settled m hentry (by simp [hmn, hm.1]) d hold
    refine hbefore.imp id fun hpred p edge hp => (hmem p d).mpr ⟨hpred p edge hp, ?_⟩
    rintro rfl
    exact absurd edge hedge

/-- The work list comes to an end with the narrowed table, and the invariant holds there. -/
theorem run (t : DominatorTable) (waiting : List Int) (h : g.Narrowing t waiting) :
    (∃ k, g.turn^[k] (t, waiting) = (g.narrow t waiting, [])) ∧
      g.Narrowing (g.narrow t waiting) [] := by
  fun_induction narrow g t waiting with
  | case1 t => exact ⟨⟨0, rfl⟩, h⟩
  | case2 t n rest keep hkept ih =>
      obtain ⟨⟨k, hk⟩, hend⟩ := ih (h.skip hkept)
      obtain ⟨hn, hne⟩ := h.waits n List.mem_cons_self
      refine ⟨⟨k + 1, ?_⟩, hend⟩
      rw [Function.iterate_succ_apply, turn, h.recomputed_eq hn hne, if_pos hkept]
      exact hk
  | case3 t n rest keep hkept affected ih =>
      obtain ⟨⟨k, hk⟩, hend⟩ := ih h.shrink
      obtain ⟨hn, hne⟩ := h.waits n List.mem_cons_self
      refine ⟨⟨k + 1, ?_⟩, hend⟩
      rw [Function.iterate_succ_apply, turn, h.recomputed_eq hn hne, if_neg hkept]
      exact hk

/-! ## The end of the work list -/

/-- When nothing waits, every path visits the candidates of its last block. -/
theorem dominates_of_mem (h : g.Narrowing t []) {d : Int} (hd : d ∈ t.of n) :
    g.Dominates d n := by
  -- Back along the path, the candidate survives at every block until it is met.
  intro path hpath
  induction hpath with
  | start _ => exact List.mem_singleton.mpr (h.entry d hd)
  | @step b c before hbefore edge ih =>
      rw [List.mem_append, List.mem_singleton]
      by_cases hc : c = g.entry
      · subst hc
        exact Or.inr (h.entry d hd)
      · rcases h.settled c hc List.not_mem_nil d hd with hself | hpred
        · exact Or.inr hself
        · exact Or.inl (ih (hpred b edge ⟨before, hbefore⟩))

theorem mem_of_iff_dominates (h : g.Narrowing t []) (hn : g.Reachable n) (d : Int) :
    d ∈ t.of n ↔ g.Dominates d n :=
  ⟨h.dominates_of_mem, h.dominators n d hn⟩

/-- There is only one table in which nothing has to wait. -/
theorem table_eq {t' : DominatorTable} (h : g.Narrowing t []) (h' : g.Narrowing t' []) :
    t = t' := by
  have hnodup : (t.map Prod.fst).Nodup := h.keys ▸ g.reachable_nodup
  have hnodup' : (t'.map Prod.fst).Nodup := h'.keys ▸ g.reachable_nodup
  rw [t.eq_map_of hnodup, t'.eq_map_of hnodup', h.keys, h'.keys]
  refine List.map_congr_left fun n hn => ?_
  have hreach : g.Reachable n := (g.mem_reachable_iff n).mp hn
  have hof : t.of n = t'.of n := by
    refine List.Pairwise.eq_of_mem_iff (r := (· < ·)) (h.ascending n) (h'.ascending n) fun d => ?_
    rw [h.mem_of_iff_dominates hreach, h'.mem_of_iff_dominates hreach]
  rw [hof]

end Narrowing

/-! ## The dominators of a flow graph -/

theorem firstCandidates_keys : g.firstCandidates.map Prod.fst = g.reachable := by
  simp [firstCandidates, Function.comp_def]

theorem mem_firstCandidates_of_iff (n d : Int) :
    d ∈ g.firstCandidates.of n ↔
      g.Reachable n ∧ g.Reachable d ∧ (n = g.entry → d = g.entry) := by
  by_cases hn : n ∈ g.reachable
  · rw [firstCandidates, DominatorTable.of_map _ hn]
    rw [g.mem_reachable_iff] at hn
    split
    · next hentry =>
        subst hentry
        rw [List.mem_singleton]
        exact ⟨fun hd => ⟨hn, hd ▸ hn, fun _ => hd⟩, fun hd => hd.2.2 rfl⟩
    · next hentry => simp [g.mem_reachable_iff, hn, hentry]
  · rw [DominatorTable.of_eq_nil _ (by rwa [firstCandidates_keys])]
    rw [g.mem_reachable_iff] at hn
    simp [hn]

/-- The invariant holds at the start, whatever order the blocks wait in. -/
theorem narrowing_start (waiting : List Int)
    (h : ∀ n, n ∈ waiting ↔ g.Reachable n ∧ n ≠ g.entry) :
    g.Narrowing g.firstCandidates waiting := by
  have hmem := g.mem_firstCandidates_of_iff
  refine ⟨g.firstCandidates_keys, ?_, ?_, ?_, fun n hn => (h n).mp hn, ?_, ?_, ?_⟩
  · intro n
    by_cases hn : n ∈ g.reachable
    · rw [firstCandidates, DominatorTable.of_map _ hn]
      split
      · exact List.pairwise_singleton _ _
      · exact g.numbers_ascending.filter _
    · rw [DominatorTable.of_eq_nil _ (by rwa [firstCandidates_keys])]
      exact List.Pairwise.nil
  · intro n d hd
    exact ((hmem n d).mp hd).2.1
  · intro d hd
    exact ((hmem g.entry d).mp hd).2.2 rfl
  · intro n d hn hd
    obtain ⟨path, hpath⟩ := hn
    refine (hmem n d).mpr ⟨⟨path, hpath⟩, hpath.exists_of_mem (hd path hpath), ?_⟩
    -- The path of the entry alone visits nothing else.
    rintro rfl
    have hstart : g.contains g.entry = true := ((Path.exists_iff g.entry _).mp ⟨path, hpath⟩).1
    exact List.mem_singleton.mp (hd [g.entry] (Path.start hstart))
  · intro n d hn hentry hd
    refine (hmem n d).mpr ⟨hn, ?_, fun heq => absurd heq hentry⟩
    rcases hd with rfl | hpred
    · exact hn
    · obtain ⟨p, hp, edge⟩ := hn.exists_predecessor hentry
      exact ((hmem p d).mp (hpred p edge hp)).2.1
  · intro n hentry hn d hd
    exact absurd ((h n).mpr ⟨((hmem n d).mp hd).1, hentry⟩) hn

/-- The work list of `dominators` starts with every reachable block but the entry. -/
theorem narrowing_dominators : g.Narrowing g.dominators [] := by
  have hstart : g.Narrowing g.firstCandidates
      ((g.reach g.successors [g.entry]).filter (· ≠ g.entry)) := by
    refine g.narrowing_start _ fun n => ?_
    rw [List.mem_filter, g.mem_reach_successors_iff]
    simp [Reachable]
  exact (Narrowing.run _ _ hstart).2

theorem dominators_keys : g.dominators.map Prod.fst = g.reachable := g.narrowing_dominators.keys

/-- The dominators of a reachable block are the blocks that every path to it visits. -/
theorem mem_of_dominators_iff {n : Int} (hn : g.Reachable n) (d : Int) :
    d ∈ g.dominators.of n ↔ g.Dominates d n :=
  g.narrowing_dominators.mem_of_iff_dominates hn d

/-- **Dominance by paths.** In whatever order the reachable blocks other than the entry wait at
    first, the work list comes to its end after finitely many turns, and the table it ends with is
    `g.dominators`. That table has exactly the reachable blocks, each once, and the set of a block
    holds exactly the blocks that every path from the entry to it visits. -/
theorem dominators_eq_visited_by_every_path :
    (∀ waiting : List Int, (∀ n, n ∈ waiting ↔ g.Reachable n ∧ n ≠ g.entry) →
      ∃ k, g.turn^[k] (g.firstCandidates, waiting) = (g.dominators, [])) ∧
    (g.dominators.map Prod.fst).Nodup ∧
    (∀ n, n ∈ g.dominators.map Prod.fst ↔ ∃ path, g.Path g.entry n path) ∧
    ∀ n doms, (n, doms) ∈ g.dominators →
      ∀ d, d ∈ doms ↔ ∀ path, g.Path g.entry n path → d ∈ path := by
  refine ⟨?_, ?_, ?_, ?_⟩
  · intro waiting hwaiting
    obtain ⟨⟨k, hk⟩, hend⟩ := Narrowing.run _ _ (g.narrowing_start waiting hwaiting)
    exact ⟨k, by rw [hk, hend.table_eq g.narrowing_dominators]⟩
  · rw [dominators_keys]
    exact g.reachable_nodup
  · intro n
    rw [dominators_keys]
    exact g.mem_reachable_iff n
  · intro n doms hrow d
    have hkey : n ∈ g.dominators.map Prod.fst := List.mem_map_of_mem hrow
    have hnodup : (g.dominators.map Prod.fst).Nodup := g.dominators_keys ▸ g.reachable_nodup
    rw [dominators_keys, mem_reachable_iff] at hkey
    rw [← DominatorTable.of_eq_of_mem _ hnodup hrow]
    exact g.mem_of_dominators_iff hkey d

/-- A block that nothing leads to is not in the table, and the exit of a diamond is dominated by
    neither of the ways to it. -/
theorem dominators_eq_visited_by_every_path_diamond :
    (∀ n, n ∈ diamond.dominators.map Prod.fst ↔ n ∈ [0, 1, 2, 3]) ∧
    ∀ doms, (3, doms) ∈ diamond.dominators → ∀ d, d ∈ doms ↔ d ∈ [0, 3] := by
  obtain ⟨_, _, hkeys, hdoms⟩ := diamond.dominators_eq_visited_by_every_path
  constructor
  · intro n
    have hreachable : diamond.reachable = [0, 1, 2, 3] := by decide +kernel
    rw [hkeys, ← hreachable]
    exact (diamond.mem_reachable_iff n).symm
  · intro doms hrow d
    rw [hdoms 3 doms hrow]
    constructor
    · intro h
      have hleft : d ∈ [0, 1, 3] := h _ (diamond_path (.inl rfl))
      have hright : d ∈ [0, 2, 3] := h _ (diamond_path (.inr rfl))
      simp only [List.mem_cons, List.not_mem_nil, or_false] at *
      omega
    · intro hd path hpath
      rcases List.mem_pair.mp hd with rfl | rfl
      · exact hpath.mem_start
      · exact hpath.dropLast_append ▸ List.mem_concat_self

end FlowGraph

end Hazard
