import Hazard.Proofs.Config.Thresholds
import Hazard.Proofs.FlowGraph.ExitPath

set_option autoImplicit false

/-! # Rules that always return

A rule can fail in three ways: a threshold is missing, a threshold is of no use to it, or a number
that it writes has too many digits. With thresholds that the rule admits the first two are ruled
out, so on a unit whose numbers can be written every rule of the table returns. Nothing else about
the unit matters: functions, locks and instants may be named that do not exist, names may be given
twice, and blocks may be numbers of no block. -/

namespace Hazard

/-! ## Numbers that can be written -/

theorem Text.isWritable_of_natAbs_le {m n : Int} (h : n.natAbs ≤ m.natAbs)
    (hm : isWritable m = true) : isWritable n = true := by
  unfold isWritable at hm ⊢
  rw [Bool.or_eq_true, decide_eq_true_eq, decide_eq_true_eq] at hm ⊢
  rcases hm with hm | hm
  · exact .inl (Nat.lt_of_le_of_lt h hm)
  · exact .inr (Nat.lt_of_le_of_lt h hm)

/-- The numbers of the location can be written. -/
def Location.Writable (loc : Location) : Prop :=
  Text.isWritable loc.line = true ∧ Text.isWritable loc.column = true

instance (loc : Location) : Decidable loc.Writable := inferInstanceAs (Decidable (_ ∧ _))

theorem Location.Writable.mapError_written {loc : Location} (h : loc.Writable) :
    loc.written.mapError Fault.ofNumeral = .ok loc.text := by
  rw [Location.written, h.1, h.2]
  rfl

theorem Location.mapError_written_of_not {loc : Location} (h : ¬loc.Writable) :
    loc.written.mapError Fault.ofNumeral = .error (.ofNumeral .unwritable) := by
  rw [Writable, ← Bool.and_eq_true_iff, Bool.not_eq_true] at h
  rw [Location.written, h]
  rfl

/-- The numbers that a rule may have to write about a unit can be written. -/
structure Model.Writable (m : Model) : Prop where
  operations : ∀ c ∈ m.maps, ∀ o ∈ c.operations, ∀ loc ∈ o.location, loc.Writable
  functions : ∀ f ∈ m.functions, ∀ loc ∈ f.location, loc.Writable
  blocks : ∀ f ∈ m.functions, ∀ b ∈ f.graph.blocks, ∀ loc ∈ b.location, loc.Writable
  counts : ∀ f ∈ m.functions, Text.isWritable f.graph.size = true
  sizes : ∀ s ∈ m.sections, Text.isWritable s.size = true

theorem Model.locate_writable (m : Model) (places : List (Option Location))
    (h : ∀ place ∈ places, ∀ loc ∈ place, loc.Writable) : (m.locate places).Writable := by
  induction places with
  | nil => exact ⟨rfl, rfl⟩
  | cons place rest ih =>
      cases place with
      | none => exact ih fun place hplace => h place (List.mem_cons_of_mem _ hplace)
      | some loc => exact h (some loc) List.mem_cons_self loc rfl

theorem Model.mem_functions_of_function? {m : Model} {name : String} {f : Function}
    (h : m.function? name = some f) : f ∈ m.functions :=
  List.mem_of_find?_eq_some h

/-! ## Thresholds -/

/-- On every unit whose numbers can be written the rule returns, with any thresholds that it
    admits. -/
def Rule.Returns [CharacterNames] (r : Rule) : Prop :=
  ∀ (m : Model) (s : RuleSettings), m.Writable → r.toRuleInfo.Admits s.thresholds →
    ∃ candidates, r.evaluate m s = .ok candidates

theorem RuleInfo.Admits.threshold [CharacterNames] {r : RuleInfo} {s : RuleSettings}
    (h : r.Admits s.thresholds)
    (name : String) {spec : ThresholdSpec} (hspec : r.thresholds.lookup name = some spec) :
    ∃ t, s.threshold name = .ok t ∧ spec.Admits t := by
  obtain ⟨t, ht, hadmits⟩ := h name spec hspec
  refine ⟨t, ?_, hadmits⟩
  rw [RuleSettings.threshold, ht]

/-- Most rules read one threshold and then look at one thing after the other. Such a rule returns if
    it does so for each of these things. -/
theorem RuleInfo.Admits.exists_threshold_mapM [CharacterNames] {α : Type} {r : RuleInfo}
    {s : RuleSettings} (h : r.Admits s.thresholds) (name : String) {spec : ThresholdSpec}
    (hspec : r.thresholds.lookup name = some spec) {items : List α}
    {findingsFor : Value → α → Except Fault (List Candidate)}
    (hitem : ∀ t, spec.Admits t → ∀ x ∈ items, ∃ cs, findingsFor t x = .ok cs) :
    ∃ candidates, (do
      let t ← s.threshold name
      return (← items.mapM (findingsFor t)).flatten) = .ok candidates := by
  obtain ⟨t, ht, hadmits⟩ := h.threshold name hspec
  obtain ⟨css, hcss⟩ := exists_mapM_eq_ok (hitem t hadmits)
  refine ⟨css.flatten, ?_⟩
  rw [ht]
  show (items.mapM (findingsFor t) >>= fun css => pure css.flatten) = .ok css.flatten
  rw [hcss]
  rfl

theorem Threshold.exists_patterns [CharacterNames] {ps : List String}
    (h : ∀ p ∈ ps, ∃ q, Pattern.parse p = .ok q) :
    ∃ qs, Threshold.patterns (.texts ps) = .ok qs := by
  refine exists_bind_eq_ok ⟨ps.map .text, rfl⟩ fun items hitems => exists_mapM_eq_ok ?_
  obtain rfl := Except.ok.inj hitems
  intro v hv
  obtain ⟨p, hp, rfl⟩ := List.mem_map.mp hv
  obtain ⟨q, hq⟩ := h p hp
  exact ⟨q, by rw [Threshold.pattern, hq]; rfl⟩

/-! ## Races -/

theorem HandlerSafety.rule_returns [CharacterNames] : rule.Returns := by
  intro m s _ hadmits
  obtain ⟨t, ht, hspec⟩ := hadmits.threshold "handler_patterns" rfl
  cases hspec with
  | patterns hparse =>
      obtain ⟨qs, hqs⟩ := Threshold.exists_patterns hparse
      refine exists_bind_eq_ok ⟨_, ht⟩ fun t' ht' => ?_
      obtain rfl := Except.ok.inj (ht.symm.trans ht')
      exact exists_bind_eq_ok ⟨qs, hqs⟩ fun _ _ => ⟨_, rfl⟩

namespace UnguardedAccess

theorem exists_findingsFor (m : Model) (reach : List (Task × List String)) (n : Int) (b : Binding) :
    ∃ cs, findingsFor m reach (.int n) b = .ok cs := by
  unfold findingsFor
  split
  · exact ⟨_, rfl⟩
  · refine exists_bind_eq_ok ⟨_, rfl⟩ fun isAbove _ => ?_
    split
    · exact ⟨_, rfl⟩
    · exact ⟨_, rfl⟩

theorem rule_returns [CharacterNames] : rule.Returns := by
  intro m s _ hadmits
  refine hadmits.exists_threshold_mapM "min_tasks" rfl fun t ht b _ => ?_
  cases ht with
  | count => exact exists_findingsFor m m.taskReach _ b

end UnguardedAccess

theorem LeakedReference.rule_returns [CharacterNames] : rule.Returns := fun _ _ _ _ => ⟨_, rfl⟩

namespace LoadThenStore

theorem mem_of_loadBefore? {dominators : DominatorTable} {ops : List MapOperation}
    {store load : MapOperation} (h : loadBefore? dominators ops store = some load) :
    load ∈ ops := by
  unfold loadBefore? at h
  split at h
  · simp at h
  · obtain ⟨doms, _, hload⟩ := Option.bind_eq_some_iff.mp h
    exact List.mem_of_find?_eq_some hload

theorem exists_finding (m : Model) (map : ConcurrentMap) (function : String) (store : MapOperation)
    {load : MapOperation} (h : ∀ loc ∈ load.location, loc.Writable) :
    ∃ c, finding m map function store load = .ok c := by
  have hwritable : (m.locate [load.location]).Writable :=
    m.locate_writable [load.location] (List.forall_mem_singleton.mpr h)
  exact exists_bind_eq_ok ⟨_, hwritable.mapError_written⟩ fun _ _ => ⟨_, rfl⟩

theorem exists_findingsFor {m : Model} (hm : m.Writable) (n : Int) {map : ConcurrentMap}
    (hmap : map ∈ m.maps) : ∃ cs, findingsFor m (.int n) map = .ok cs := by
  refine exists_bind_eq_ok (exists_mapM_eq_ok fun function _ => ?_) fun _ _ => ⟨_, rfl⟩
  refine exists_bind_eq_ok ⟨_, rfl⟩ fun isAbove _ => ?_
  split
  · exact ⟨_, rfl⟩
  · refine exists_mapM_eq_ok fun pair hpair => ?_
    obtain ⟨store, _, hstore⟩ := List.mem_filterMap.mp hpair
    obtain ⟨load, hload, rfl⟩ := Option.map_eq_some_iff.mp hstore
    have hop : load ∈ map.operations := (List.mem_filter.mp (mem_of_loadBefore? hload)).1
    exact exists_finding m map function store (hm.operations map hmap load hop)

theorem rule_returns [CharacterNames] : rule.Returns := by
  intro m s hm hadmits
  refine hadmits.exists_threshold_mapM "min_tasks" rfl fun t ht map hmap => ?_
  cases ht with
  | count => exact exists_findingsFor hm _ hmap

end LoadThenStore

/-! ## Scaling -/

theorem ZeroCapacity.rule_returns [CharacterNames] : rule.Returns := fun _ _ _ _ => ⟨_, rfl⟩

namespace ShortReadWrite

theorem exists_findingsFor (m : Model) (n : Int) {s : CriticalSection}
    (h : Text.isWritable s.size = true) : ∃ cs, findingsFor m (.int n) s = .ok cs := by
  unfold findingsFor
  split
  · exact ⟨_, rfl⟩
  · refine exists_bind_eq_ok ⟨_, rfl⟩ fun isReached _ => ?_
    split
    · exact ⟨_, rfl⟩
    · rw [h]
      exact ⟨_, rfl⟩

theorem rule_returns [CharacterNames] : rule.Returns := by
  intro m s hm hadmits
  refine hadmits.exists_threshold_mapM "short_section_size" rfl fun t ht section' hsection => ?_
  cases ht with
  | count => exact exists_findingsFor m _ (hm.sizes section' hsection)

end ShortReadWrite

/-! ## Time -/

namespace TimerLeak

/-- The paths on which a timer is not stopped lead to blocks of the function that owns it. -/
theorem block_of_mem_unstoppedExitPaths {m : Model} {t : Timer} {f : Function}
    (hf : m.function? t.function = some f) {path : List Int}
    (hpath : path ∈ m.unstoppedExitPaths t) :
    ∃ n, path.getLast? = some n ∧ ∃ b ∈ f.graph.blocks, f.graph.block? n = some b := by
  rw [Model.unstoppedExitPaths, hf] at hpath
  dsimp only at hpath
  split_ifs at hpath
  · simp at hpath
  · obtain ⟨n, hn, hlast⟩ := f.graph.getLast?_of_mem_pathsToExits hpath
    exact ⟨n, hlast, f.graph.exists_block_of_contains (f.graph.contains_of_mem_exitBlocks hn)⟩

theorem length_unstoppedExitPaths_le {m : Model} {t : Timer} {f : Function}
    (hf : m.function? t.function = some f) :
    (m.unstoppedExitPaths t).length ≤ f.graph.size := by
  rw [Model.unstoppedExitPaths, hf]
  dsimp only
  split_ifs
  · exact Nat.zero_le _
  · exact f.graph.length_pathsToExits_le t.block t.stopBlocks

theorem exists_ofPath {m : Model} (hm : m.Writable) {t : Timer} {f : Function}
    (hf : m.function? t.function = some f) {path : List Int}
    (hpath : path ∈ m.unstoppedExitPaths t) : ∃ e, Exit.ofPath m f path = .ok e := by
  have hmem : f ∈ m.functions := Model.mem_functions_of_function? hf
  obtain ⟨n, hlast, b, hb, hblock⟩ := block_of_mem_unstoppedExitPaths hf hpath
  have hplace : (m.locate [b.location, f.location]).Writable := by
    refine m.locate_writable _ (List.forall_mem_cons.mpr ⟨hm.blocks f hmem b hb, ?_⟩)
    exact List.forall_mem_singleton.mpr (hm.functions f hmem)
  unfold Exit.ofPath
  simp only [hlast, Option.getD_some, hblock, Option.bind_some]
  exact exists_bind_eq_ok ⟨_, hplace.mapError_written⟩ fun _ _ => ⟨_, rfl⟩

theorem function?_of_owner? {m : Model} {t : Timer} {f : Function} (h : owner? m t = some f) :
    m.function? t.function = some f := by
  obtain ⟨f', hf', h⟩ := Option.bind_eq_some_iff.mp h
  split at h
  · obtain rfl := Option.some.inj h
    exact hf'
  · simp at h

theorem exists_findingsFor {m : Model} (hm : m.Writable) {n : Int} (hn : 1 ≤ n) (t : Timer) :
    ∃ cs, findingsFor m (.int n) t = .ok cs := by
  unfold findingsFor
  split
  · exact ⟨_, rfl⟩
  next f howner =>
    have hf := function?_of_owner? howner
    have hsize := hm.counts f (Model.mem_functions_of_function? hf)
    refine exists_bind_eq_ok (exists_mapM_eq_ok fun path hpath => exists_ofPath hm hf hpath) ?_
    intro exits hexits
    have hlength : exits.length ≤ f.graph.size := by
      rw [length_of_mapM_eq_ok hexits]
      exact length_unstoppedExitPaths_le hf
    refine exists_bind_eq_ok ⟨n, rfl⟩ fun count hcount => ?_
    obtain rfl := Except.ok.inj hcount
    -- The number of paths that are left out is one of those up to the number of blocks.
    have hrest : n < exits.length → Text.isWritable (exits.length - n) = true := fun hlt =>
      Text.isWritable_of_natAbs_le (by omega) hsize
    split
    next hunwritable =>
      simp only [Bool.and_eq_true, decide_eq_true_eq] at hunwritable
      simp [hrest hunwritable.2] at hunwritable
    next => exact ⟨_, rfl⟩

theorem rule_returns [CharacterNames] : rule.Returns := by
  intro m s hm hadmits
  refine hadmits.exists_threshold_mapM "max_reported_paths" rfl fun t ht timer _ => ?_
  cases ht with
  | count hmin =>
      have hbound := hmin (.int 1) rfl
      exact exists_findingsFor hm (by simpa [Number.lt] using hbound) timer

end TimerLeak

theorem StructuralEquality.rule_returns [CharacterNames] : rule.Returns := fun _ _ _ _ => ⟨_, rfl⟩

theorem ElapsedSign.rule_returns [CharacterNames] : rule.Returns := fun _ _ _ _ => ⟨_, rfl⟩

theorem MixedOrdering.rule_returns [CharacterNames] : rule.Returns := fun _ _ _ _ => ⟨_, rfl⟩

/-! ## The table -/

theorem rules_return [CharacterNames] {r : Rule} (h : r ∈ rules) : r.Returns := by
  simp only [rules, List.mem_cons, List.not_mem_nil, or_false] at h
  rcases h with rfl | rfl | rfl | rfl | rfl | rfl | rfl | rfl | rfl | rfl
  · exact HandlerSafety.rule_returns
  · exact UnguardedAccess.rule_returns
  · exact LeakedReference.rule_returns
  · exact LoadThenStore.rule_returns
  · exact ZeroCapacity.rule_returns
  · exact ShortReadWrite.rule_returns
  · exact TimerLeak.rule_returns
  · exact StructuralEquality.rule_returns
  · exact ElapsedSign.rule_returns
  · exact MixedOrdering.rule_returns

end Hazard
