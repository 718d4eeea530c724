import Hazard.Proofs.Except
import Hazard.Rule.Table

set_option autoImplicit false

/-! # Where candidates come from

A candidate names the rule that has found it, and the engine goes by that name when it looks for
waivers and when it tells findings from diagnostics about the run. Nothing in the type of a rule
keeps it from naming another one. The rules of the table do not: whatever they report is made by
`RuleInfo.candidate` from their own facts, and none of them has the id of a diagnostic about the
run. -/

namespace Hazard

/-- The candidate has the id, the levels and the fix of the rule. -/
def RuleInfo.Makes (r : RuleInfo) (c : Candidate) : Prop :=
  ∃ location message waivers extras, c = r.candidate location message waivers extras

theorem RuleInfo.makes_candidate (r : RuleInfo) (location : Location) (message : String)
    (waivers : List Waiver) (extras : Extras) :
    r.Makes (r.candidate location message waivers extras) :=
  ⟨location, message, waivers, extras, rfl⟩

theorem RuleInfo.Makes.rule_eq {r : RuleInfo} {c : Candidate} (h : r.Makes c) : c.rule = r.id := by
  obtain ⟨_, _, _, _, rfl⟩ := h
  rfl

/-- A rule that reports its own candidates only. -/
def Rule.ReportsOwn (r : Rule) : Prop :=
  ∀ m settings candidates, r.evaluate m settings = .ok candidates →
    ∀ c ∈ candidates, r.toRuleInfo.Makes c

/-- Most rules read one threshold and then look at one thing after the other. Such a rule makes its
    own candidates if it does so for each of these things. -/
theorem RuleInfo.makes_of_threshold_mapM {α : Type} {info : RuleInfo} {settings : RuleSettings}
    {name : String} {items : List α} {findingsFor : Value → α → Except Fault (List Candidate)}
    (hitem : ∀ t x cs, findingsFor t x = .ok cs → ∀ c ∈ cs, info.Makes c)
    {candidates : List Candidate}
    (h : (do
      let t ← settings.threshold name
      return (← items.mapM (findingsFor t)).flatten) = .ok candidates) :
    ∀ c ∈ candidates, info.Makes c := by
  intro c hc
  simp only [bind_eq_ok_iff, pure_eq_ok_iff] at h
  obtain ⟨t, _, css, hcss, rfl⟩ := h
  obtain ⟨x, _, cs, hcs, hc⟩ := exists_of_mem_flatten_mapM hcss hc
  exact hitem t x cs hcs c hc

/-! ## Races -/

namespace HandlerSafety

theorem makes_of_finding? {m : Model} {running : Runners} {r : Registration} {h f : Function}
    {a : Access} {c : Candidate} (hc : finding? m running r h f a = some c) : info.Makes c := by
  simp only [finding?, Option.bind_eq_bind, Option.bind_eq_some_iff] at hc
  obtain ⟨b, _, hc⟩ := hc
  split at hc
  · split at hc
    · simp at hc
    · obtain rfl := Option.some.inj hc
      exact info.makes_candidate _ _ _ _
  · simp at hc

theorem rule_reportsOwn [CharacterNames] : rule.ReportsOwn := by
  intro m settings candidates h c hc
  simp only [rule, bind_eq_ok_iff, pure_eq_ok_iff] at h
  obtain ⟨_, _, _, _, rfl⟩ := h
  obtain ⟨⟨r, handler⟩, _, hc⟩ := List.mem_flatMap.mp hc
  obtain ⟨name, _, hc⟩ := List.mem_flatMap.mp hc
  split at hc
  · simp at hc
  · obtain ⟨a, _, hc⟩ := List.mem_filterMap.mp hc
    exact makes_of_finding? hc

end HandlerSafety

namespace UnguardedAccess

theorem makes_of_findingsFor {m : Model} {reach : List (Task × List String)} {minTasks : Value}
    {b : Binding} {cs : List Candidate} {c : Candidate}
    (h : findingsFor m reach minTasks b = .ok cs) (hc : c ∈ cs) : info.Makes c := by
  unfold findingsFor at h
  split at h
  · obtain rfl := (pure_eq_ok_iff _ _).mp h
    simp at hc
  · obtain ⟨isAbove, _, h⟩ := (bind_eq_ok_iff _ _ _).mp h
    split at h
    · obtain rfl := (pure_eq_ok_iff _ _).mp h
      simp at hc
    · obtain rfl := (pure_eq_ok_iff _ _).mp h
      obtain ⟨⟨f, a, tasks⟩, _, rfl⟩ := List.mem_map.mp hc
      exact info.makes_candidate _ _ _ _

theorem rule_reportsOwn : rule.ReportsOwn := by
  intro m settings candidates h
  exact RuleInfo.makes_of_threshold_mapM (fun _ _ _ hcs _ hc => makes_of_findingsFor hcs hc) h

end UnguardedAccess

namespace LeakedReference

theorem makes_of_leak? {m : Model} {s : CriticalSection} {guarded : List Int} {f : Function}
    {site : ReturnSite × Nat} {l : Leak} (hl : leak? m s guarded f site = some l) :
    info.Makes l.candidate := by
  simp only [leak?, Option.bind_eq_bind, Option.bind_eq_some_iff] at hl
  obtain ⟨value, _, b, _, hl⟩ := hl
  split at hl
  · obtain rfl := Option.some.inj hl
    exact info.makes_candidate _ _ _ _
  · simp at hl

theorem rule_reportsOwn : rule.ReportsOwn := by
  intro m settings candidates h c hc
  obtain rfl := (pure_eq_ok_iff _ _).mp h
  obtain ⟨l, hl, rfl⟩ := List.mem_map.mp hc
  -- Reporting a return once drops leaks, but makes none.
  obtain ⟨s, _, hl⟩ := List.mem_flatMap.mp (mem_of_mem_novel hl).1
  unfold leaks at hl
  split at hl
  · simp at hl
  · obtain ⟨site, _, hl⟩ := List.mem_filterMap.mp hl
    exact makes_of_leak? hl

end LeakedReference

namespace LoadThenStore

theorem makes_of_finding {m : Model} {map : ConcurrentMap} {function : String}
    {store load : MapOperation} {c : Candidate} (h : finding m map function store load = .ok c) :
    info.Makes c := by
  simp only [finding, bind_eq_ok_iff, pure_eq_ok_iff] at h
  obtain ⟨loadText, _, rfl⟩ := h
  exact info.makes_candidate _ _ _ _

theorem makes_of_findingsIn {m : Model} {minTasks : Value} {map : ConcurrentMap}
    {function : String} {cs : List Candidate} {c : Candidate}
    (h : findingsIn m minTasks map function = .ok cs) (hc : c ∈ cs) : info.Makes c := by
  obtain ⟨isAbove, _, h⟩ := (bind_eq_ok_iff _ _ _).mp h
  split at h
  · obtain rfl := (pure_eq_ok_iff _ _).mp h
    simp at hc
  · obtain ⟨⟨store, load⟩, _, hc⟩ := exists_of_mem_mapM h hc
    exact makes_of_finding hc

theorem makes_of_findingsFor {m : Model} {minTasks : Value} {map : ConcurrentMap}
    {cs : List Candidate} {c : Candidate} (h : findingsFor m minTasks map = .ok cs) (hc : c ∈ cs) :
    info.Makes c := by
  simp only [findingsFor, bind_eq_ok_iff, pure_eq_ok_iff] at h
  obtain ⟨css, hcss, rfl⟩ := h
  obtain ⟨function, _, cs, hcs, hc⟩ := exists_of_mem_flatten_mapM hcss hc
  exact makes_of_findingsIn hcs hc

theorem rule_reportsOwn : rule.ReportsOwn := by
  intro m settings candidates h
  exact RuleInfo.makes_of_threshold_mapM (fun _ _ _ hcs _ hc => makes_of_findingsFor hcs hc) h

end LoadThenStore

/-! ## Scaling -/

namespace ZeroCapacity

theorem rule_reportsOwn : rule.ReportsOwn := by
  intro m settings candidates h c hc
  obtain rfl := (pure_eq_ok_iff _ _).mp h
  obtain ⟨channel, _, rfl⟩ := List.mem_map.mp hc
  exact info.makes_candidate _ _ _ _

end ZeroCapacity

namespace ShortReadWrite

theorem makes_of_findingsFor {m : Model} {limit : Value} {s : CriticalSection}
    {cs : List Candidate} {c : Candidate} (h : findingsFor m limit s = .ok cs) (hc : c ∈ cs) :
    info.Makes c := by
  unfold findingsFor at h
  split at h
  · obtain rfl := (pure_eq_ok_iff _ _).mp h
    simp at hc
  · obtain ⟨isReached, _, h⟩ := (bind_eq_ok_iff _ _ _).mp h
    split at h
    · obtain rfl := (pure_eq_ok_iff _ _).mp h
      simp at hc
    · split at h
      · exact absurd h (throw_ne_ok _ _)
      · obtain rfl := (pure_eq_ok_iff _ _).mp h
        obtain rfl := List.mem_singleton.mp hc
        exact info.makes_candidate _ _ _ _

theorem rule_reportsOwn : rule.ReportsOwn := by
  intro m settings candidates h
  exact RuleInfo.makes_of_threshold_mapM (fun _ _ _ hcs _ hc => makes_of_findingsFor hcs hc) h

end ShortReadWrite

/-! ## Timers and instants -/

namespace TimerLeak

theorem makes_of_findingsFor {m : Model} {limit : Value} {t : Timer} {cs : List Candidate}
    {c : Candidate} (h : findingsFor m limit t = .ok cs) (hc : c ∈ cs) : info.Makes c := by
  unfold findingsFor at h
  split at h
  · obtain rfl := (pure_eq_ok_iff _ _).mp h
    simp at hc
  · obtain ⟨exits, _, h⟩ := (bind_eq_ok_iff _ _ _).mp h
    obtain ⟨count, _, h⟩ := (bind_eq_ok_iff _ _ _).mp h
    split at h
    · obtain ⟨_, hthrow, _⟩ := (bind_eq_ok_iff _ _ _).mp h
      exact absurd hthrow (throw_ne_ok _ _)
    · obtain rfl := (pure_eq_ok_iff _ _).mp h
      obtain rfl := List.mem_singleton.mp hc
      exact info.makes_candidate _ _ _ _

theorem rule_reportsOwn : rule.ReportsOwn := by
  intro m settings candidates h
  exact RuleInfo.makes_of_threshold_mapM (fun _ _ _ hcs _ hc => makes_of_findingsFor hcs hc) h

end TimerLeak

namespace StructuralEquality

theorem rule_reportsOwn : rule.ReportsOwn := by
  intro m settings candidates h c hc
  obtain rfl := (pure_eq_ok_iff _ _).mp h
  obtain ⟨comparison, _, rfl⟩ := List.mem_map.mp hc
  exact info.makes_candidate _ _ _ _

end StructuralEquality

namespace ElapsedSign

theorem makes_of_finding? {m : Model} {e : Elapsed} {c : Candidate}
    (h : finding? m e = some c) : info.Makes c := by
  simp only [finding?, Option.bind_eq_bind, Option.bind_eq_some_iff] at h
  obtain ⟨i, _, h⟩ := h
  split at h
  · simp at h
  · obtain rfl := Option.some.inj h
    exact info.makes_candidate _ _ _ _

theorem rule_reportsOwn : rule.ReportsOwn := by
  intro m settings candidates h c hc
  obtain rfl := (pure_eq_ok_iff _ _).mp h
  obtain ⟨e, _, hc⟩ := List.mem_filterMap.mp hc
  exact makes_of_finding? hc

end ElapsedSign

namespace MixedOrdering

theorem makes_of_finding? {m : Model} {comparison : Comparison} {c : Candidate}
    (h : finding? m comparison = some c) : info.Makes c := by
  simp only [finding?, Option.bind_eq_bind, Option.bind_eq_some_iff] at h
  obtain ⟨left, _, right, _, h⟩ := h
  split at h
  · obtain rfl := Option.some.inj h
    exact info.makes_candidate _ _ _ _
  · simp at h

theorem rule_reportsOwn : rule.ReportsOwn := by
  intro m settings candidates h c hc
  obtain rfl := (pure_eq_ok_iff _ _).mp h
  obtain ⟨comparison, _, hc⟩ := List.mem_filterMap.mp hc
  exact makes_of_finding? hc

end MixedOrdering

/-! ## The table -/

theorem rules_reportOwn [CharacterNames] {r : Rule} (h : r ∈ rules) : r.ReportsOwn := by
  simp only [rules, List.mem_cons, List.not_mem_nil, or_false] at h
  rcases h with rfl | rfl | rfl | rfl | rfl | rfl | rfl | rfl | rfl | rfl
  · exact HandlerSafety.rule_reportsOwn
  · exact UnguardedAccess.rule_reportsOwn
  · exact LeakedReference.rule_reportsOwn
  · exact LoadThenStore.rule_reportsOwn
  · exact ZeroCapacity.rule_reportsOwn
  · exact ShortReadWrite.rule_reportsOwn
  · exact TimerLeak.rule_reportsOwn
  · exact StructuralEquality.rule_reportsOwn
  · exact ElapsedSign.rule_reportsOwn
  · exact MixedOrdering.rule_reportsOwn

theorem id_not_mem_runRules [CharacterNames] {r : Rule} (h : r ∈ rules) : r.id ∉ runRules := by
  have hids : ∀ info ∈ ruleInfos, info.id ∉ runRules := by decide
  exact hids r.toRuleInfo (map_toRuleInfo_rules ▸ List.mem_map_of_mem h)

/-- With the given settings a rule puts its own id on its candidates, and that is not the id of a
    diagnostic about the run. -/
structure Rule.NamesItself (r : Rule) (settings : RuleSettings) : Prop where
  id : r.id ∉ runRules
  candidates : ∀ m candidates, r.evaluate m settings = .ok candidates →
    ∀ c ∈ candidates, c.rule = r.id

theorem rules_nameThemselves [CharacterNames] {r : Rule} (h : r ∈ rules) (settings : RuleSettings) :
    r.NamesItself settings where
  id := id_not_mem_runRules h
  candidates m candidates hcandidates c hc :=
    (rules_reportOwn h m settings candidates hcandidates c hc).rule_eq

/-- The ids tell the rules apart. -/
theorem rule?_eq_some [CharacterNames] {r : Rule} (h : r ∈ rules) : rule? r.id = some r := by
  simp only [rules, List.mem_cons, List.not_mem_nil, or_false] at h
  rcases h with rfl | rfl | rfl | rfl | rfl | rfl | rfl | rfl | rfl | rfl <;> rfl

end Hazard
