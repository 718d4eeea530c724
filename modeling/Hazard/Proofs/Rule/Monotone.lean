import Hazard.Proofs.Rule.MoreTasks
import Mathlib.Data.List.Flatten

set_option autoImplicit false

/-! # More locks and more concurrency

The rules about races report state that several runners use without a lock. So more locking can only
take findings away, and more concurrency can only add some: more tasks, more registrations of
handlers, more calls that register handlers.

For locking this is said of the lists of candidates. More concurrency changes the candidates, which
name those that share the state, so there it is said of the sites. A finding about a concurrent map
also shows the location of a load, and this is the one thing that can go wrong: with more tasks
there can be a load to show whose location has too many digits, and then the rule reports nothing at
all. -/

namespace Hazard

/-- A question that is asked of the name of the unit only. -/
theorem Model.locate_congr {m m' : Model} (h : m.unit = m'.unit) : m.locate = m'.locate := by
  funext places
  induction places with
  | nil => exact congrArg Location.ofFile h
  | cons place rest ih =>
      cases place with
      | some loc => rfl
      | none => exact ih

theorem RuleInfo.Admits.exists_count [CharacterNames] {r : RuleInfo} {s : RuleSettings}
    (h : r.Admits s.thresholds) (name : String) {default : Int} {minimum maximum : Option Number}
    (hspec : r.thresholds.lookup name = some (.count default minimum maximum)) :
    ∃ n, s.threshold name = .ok (.int n) := by
  obtain ⟨t, ht, hadmits⟩ := h.threshold name hspec
  cases hadmits with
  | @count _ n => exact ⟨n, ht⟩

/-! ## More locks -/

/-- The same facts with other critical sections. -/
def Model.withSections (m : Model) (ss : List CriticalSection) : Model := { m with sections := ss }

section Sections

variable {m : Model} {ss : List CriticalSection}

/-- What no section guards, no section of fewer guards. -/
theorem Model.isGuarded_of_withSections (h : m.sections ⊆ ss) {function binding : String}
    {block : Int} (hfree : (m.withSections ss).isGuarded function block binding = false) :
    m.isGuarded function block binding = false := by
  rw [isGuarded_eq_any, List.any_eq_false] at hfree ⊢
  exact fun s hs => hfree s (h hs)

/-- With thresholds that it admits the rule returns, and where there are more sections it reports
    some of the same candidates in the same order. -/
def Rule.QuietedByLocks [CharacterNames] (r : Rule) (m : Model) : Prop :=
  ∀ (s : RuleSettings) (ss : List CriticalSection), r.toRuleInfo.Admits s.thresholds →
    m.sections ⊆ ss → ∃ old new, r.evaluate m s = .ok old
      ∧ r.evaluate (m.withSections ss) s = .ok new ∧ new.Sublist old

namespace HandlerSafety

theorem exists_patterns [CharacterNames] {s : RuleSettings} (h : info.Admits s.thresholds) :
    ∃ t patterns, s.threshold "handler_patterns" = .ok t
      ∧ Threshold.patterns t = .ok patterns := by
  obtain ⟨t, ht, hadmits⟩ := h.threshold "handler_patterns" rfl
  cases hadmits with
  | patterns hparse =>
      obtain ⟨patterns, hpatterns⟩ := Threshold.exists_patterns hparse
      exact ⟨_, patterns, ht, hpatterns⟩

theorem finding_withSections : finding (m.withSections ss) = finding m := by
  funext r handler f a b shared
  simp only [finding, Model.locate_congr (show (m.withSections ss).unit = m.unit from rfl)]

theorem finding?_withSections (h : m.sections ⊆ ss) (running : Runners) (r : Registration)
    (handler f : Function) (a : Access) :
    finding? (m.withSections ss) running r handler f a = none
      ∨ finding? (m.withSections ss) running r handler f a = finding? m running r handler f a := by
  have hbinding : (m.withSections ss).binding? a.binding = m.binding? a.binding := rfl
  unfold finding?
  rw [hbinding]
  cases m.binding? a.binding with
  | none => exact .inl rfl
  | some b =>
      cases hguarded : (m.withSections ss).isGuarded f.name a.block b.name with
      | true => exact .inl (by simp [hguarded])
      | false =>
          have hunguarded := Model.isGuarded_of_withSections h hguarded
          refine .inr ?_
          simp only [Option.bind_eq_bind, Option.bind_some, hguarded, hunguarded,
            finding_withSections]
          rfl

theorem reports_withSections (h : m.sections ⊆ ss) (isRouter : String → Bool) :
    (reports (m.withSections ss) isRouter).Sublist (reports m isRouter) := by
  refine List.Sublist.flatMap_right _ fun ⟨r, handler⟩ _ => ?_
  refine List.Sublist.flatMap_right _ fun name _ => ?_
  have hfunction : (m.withSections ss).function? name = m.function? name := rfl
  rw [hfunction]
  cases m.function? name with
  | none => exact List.Sublist.refl _
  | some f =>
      dsimp only
      rw [List.filterMap_eq_flatMap_toList, List.filterMap_eq_flatMap_toList]
      refine List.Sublist.flatMap_right _ fun a _ => ?_
      let running := runners m ((m.handlers isRouter).map (·.2))
      show ((finding? (m.withSections ss) running r handler f a).map _).toList.Sublist _
      rcases finding?_withSections h running r handler f a with hnone | hsame
      · rw [hnone]
        exact List.nil_sublist _
      · rw [hsame]

theorem rule_quietedByLocks [CharacterNames] : rule.QuietedByLocks m := by
  intro s ss hadmits h
  obtain ⟨t, patterns, ht, hpatterns⟩ := exists_patterns hadmits
  exact ⟨_, _, evaluate_eq ht hpatterns, evaluate_eq ht hpatterns,
    (reports_withSections h (isRouter patterns)).map _⟩

end HandlerSafety

namespace UnguardedAccess

theorem reports_withSections (h : m.sections ⊆ ss) (minTasks : Number) :
    (reports (m.withSections ss) minTasks).Sublist (reports m minTasks) := by
  refine List.Sublist.flatMap_right _ fun b _ => ?_
  have hfinding : finding (m.withSections ss) = finding m := by
    funext b' tasks f a
    simp only [finding, Model.locate_congr (show (m.withSections ss).unit = m.unit from rfl)]
  have hsites : sharedSites (m.withSections ss) (m.withSections ss).taskReach b.name
      = sharedSites m m.taskReach b.name := rfl
  have hweight : sharedWeight (m.withSections ss) b.name = sharedWeight m b.name := rfl
  simp only [reportsFor, hfinding, hsites, hweight]
  split_ifs
  · refine (List.monotone_filter_right _ fun site hsite => ?_).map _
    rw [Bool.not_eq_true'] at hsite ⊢
    exact Model.isGuarded_of_withSections h hsite
  · exact List.Sublist.refl _

theorem rule_quietedByLocks [CharacterNames] : rule.QuietedByLocks m := by
  intro s ss hadmits h
  obtain ⟨n, ht⟩ := hadmits.exists_count "min_tasks" rfl
  exact ⟨_, _, evaluate_eq ht rfl, evaluate_eq ht rfl, (reports_withSections h (.int n)).map _⟩

end UnguardedAccess

end Sections

/-! ## More handlers -/

/-- The same facts with more registrations. -/
def Model.withRegistrations (m : Model) (rs : List Registration) : Model :=
  { m with registrations := m.registrations ++ rs }

namespace HandlerSafety

variable {m : Model} {ts : List Task} {rs : List Registration}

/-- Who shares a binding goes on sharing it. -/
theorem sharers_subset {handlers handlers' : List Function} (h : handlers ⊆ handlers')
    (self binding : String) :
    sharers m (runners m handlers) self binding ⊆
      sharers ((m.withTasks ts).withRegistrations rs)
        (runners ((m.withTasks ts).withRegistrations rs) handlers') self binding := by
  intro text htext
  obtain ⟨site, hsite, hby⟩ := (mem_sharers_iff m handlers self binding text).mp htext
  refine (mem_sharers_iff _ handlers' self binding text).mpr ⟨site, hsite, ?_⟩
  rcases hby with ⟨h', hh', hself, hreach, htext⟩ | ⟨t, ht, htext⟩
  · exact .inl ⟨h', h hh', hself, hreach, htext⟩
  · obtain ⟨new, _, heq⟩ := m.sharingTasks_withTasks ts site.1.name binding
    refine .inr ⟨t, ?_, htext⟩
    show t ∈ (m.withTasks ts).sharingTasks site.1.name binding
    rw [heq]
    exact List.mem_append_left _ ht

theorem Exposed.mono {handlers handlers' : List Function} (hsub : handlers ⊆ handlers')
    {h f : Function} {a : Access} {b : Binding} (hexposed : Exposed m handlers h f a b) :
    Exposed ((m.withTasks ts).withRegistrations rs) handlers' h f a b where
  binding := hexposed.binding
  contested := hexposed.contested
  reachable := hexposed.reachable
  unguarded := hexposed.unguarded
  shared := by
    obtain ⟨text, htext⟩ := List.exists_mem_of_ne_nil _ hexposed.shared
    exact List.ne_nil_of_mem (sharers_subset hsub h.name b.name htext)

/-- What a handler is reported for, it is also reported for where there are more tasks and more
    handlers. -/
theorem sites_subset {isRouter isRouter' : String → Bool}
    (hrouter : ∀ call, isRouter call = true → isRouter' call = true) :
    (reports m isRouter).map (·.1) ⊆
      (reports ((m.withTasks ts).withRegistrations rs) isRouter').map (·.1) := by
  have hhandlers : (m.handlers isRouter).map (·.2) ⊆
      (((m.withTasks ts).withRegistrations rs).handlers isRouter').map (·.2) := by
    intro f hf
    obtain ⟨r, hr, hcall, hf⟩ := (m.mem_handlers_iff isRouter f).mp hf
    refine (Model.mem_handlers_iff _ isRouter' f).mpr ⟨r, ?_, hrouter r.call hcall, hf⟩
    exact List.mem_append_left _ hr
  rintro ⟨h, f, a⟩ hsite
  obtain ⟨hh, hname, hf, ha, b, hexposed⟩ := (mem_sites_iff m isRouter h f a).mp hsite
  exact (mem_sites_iff _ isRouter' h f a).mpr
    ⟨hhandlers hh, hname, hf, ha, b, hexposed.mono hhandlers⟩

/-- More patterns stand for more calls. -/
theorem patterns_append [CharacterNames] {ps qs : List String} {all : List Pattern}
    (h : Threshold.patterns (.texts (ps ++ qs)) = .ok all) :
    ∃ old new, Threshold.patterns (.texts ps) = .ok old ∧ all = old ++ new := by
  have hall : ((ps.map Value.text) ++ (qs.map Value.text)).mapM Threshold.pattern = .ok all := by
    rw [← List.map_append]
    exact h
  rw [List.mapM_append] at hall
  simp only [bind_eq_ok_iff, pure_eq_ok_iff] at hall
  obtain ⟨old, hold, new, _, rfl⟩ := hall
  exact ⟨old, new, hold, rfl⟩

end HandlerSafety

/-! ## More tasks that use a concurrent map -/

theorem Task.totalWeight_append (ts us : List Task) :
    totalWeight (ts ++ us) = totalWeight ts + totalWeight us := by
  simp only [totalWeight_eq_sum, List.map_append, List.sum_append]

namespace LoadThenStore

variable {m : Model} {ts : List Task}

/-- Stores that are reported stay among those to be reported. -/
theorem sites_subset (minTasks : Number) :
    (reports m minTasks).map (·.1) ⊆ (reports (m.withTasks ts) minTasks).map (·.1) := by
  rintro ⟨map, store⟩ hsite
  obtain ⟨hmap, hstore, henough, load, hload⟩ := (mem_sites_iff m minTasks map store).mp hsite
  refine (mem_sites_iff _ minTasks map store).mpr ⟨hmap, hstore, ?_, load, hload⟩
  rw [Bool.eq_false_iff] at henough ⊢
  refine fun hfew => henough (Number.int_lt_of_le ?_ hfew)
  rw [Model.tasksReaching_withTasks, Task.totalWeight_append]
  exact Int.ofNat_le.mpr (Nat.le_add_right _ _)

/-- Some operation on a map of the unit has a location that cannot be written. -/
def HasUnwritable (m : Model) : Prop :=
  ∃ map ∈ m.maps, ∃ o ∈ map.operations, ∃ loc ∈ o.location, ¬loc.Writable

/-- The one failure is that the location of a load cannot be written. -/
theorem finding_failsOnly {map : ConcurrentMap} (hmap : map ∈ m.maps) (function : String)
    (store : MapOperation) {load : MapOperation} (hload : load ∈ map.operations) :
    FailsOnly (fun e => e = .ofNumeral .unwritable ∧ HasUnwritable m)
      (finding m map function store load) := by
  refine .bind (fun e he => ?_) fun _ _ => .pure _
  have hunwritable : ¬(m.locate [load.location]).Writable := fun hwritable => by
    rw [hwritable.mapError_written] at he
    cases he
  refine ⟨?_, map, hmap, load, hload, ?_⟩
  · rw [Location.mapError_written_of_not hunwritable] at he
    exact (Except.error.inj he).symm
  · by_contra hall
    refine hunwritable (m.locate_writable _ (List.forall_mem_singleton.mpr fun loc hloc => ?_))
    by_contra hloc'
    exact hall ⟨loc, hloc, hloc'⟩

theorem evaluate_failsOnly {s : RuleSettings} {t : Value} {n : Number}
    (ht : s.threshold "min_tasks" = .ok t) (hn : t.number? = some n) :
    FailsOnly (fun e => e = .ofNumeral .unwritable ∧ HasUnwritable m) (rule.evaluate m s) := by
  rw [evaluate_eq ht hn]
  refine .mapM fun report hreport => ?_
  obtain ⟨map, hmap, store, _, _, load, hload, rfl⟩ := (mem_reports_iff m n report).mp hreport
  have hop : load ∈ map.operations := (List.mem_filter.mp (mem_of_loadBefore? hload)).1
  exact finding_failsOnly hmap store.function store hop

end LoadThenStore

/-! ## All of it -/

/-- **More locks take findings away, and more concurrency adds some.** With more sections the
    candidates about handlers and about tasks are a part of what they were. With more tasks, more
    registrations and more patterns for these, what a handler is reported for stays reported, and
    so do stores with more tasks, as long as there is no location in the way that cannot be
    written. -/
theorem races_monotone [CharacterNames] (m : Model) (ts : List Task) :
    (HandlerSafety.rule.QuietedByLocks m ∧ UnguardedAccess.rule.QuietedByLocks m)
    ∧ (∀ (rs : List Registration) (s s' : RuleSettings) (ps qs : List String),
      s.threshold "handler_patterns" = .ok (.texts ps) →
      s'.threshold "handler_patterns" = .ok (.texts (ps ++ qs)) →
      HandlerSafety.info.Admits s'.thresholds →
      let m' := (m.withTasks ts).withRegistrations rs
      ∃ old new, Threshold.patterns (.texts ps) = .ok old
        ∧ Threshold.patterns (.texts (ps ++ qs)) = .ok (old ++ new)
        ∧ HandlerSafety.rule.evaluate m s
          = .ok ((HandlerSafety.reports m (HandlerSafety.isRouter old)).map (·.2))
        ∧ HandlerSafety.rule.evaluate m' s'
          = .ok ((HandlerSafety.reports m' (HandlerSafety.isRouter (old ++ new))).map (·.2))
        ∧ (HandlerSafety.reports m (HandlerSafety.isRouter old)).map (·.1)
          ⊆ (HandlerSafety.reports m' (HandlerSafety.isRouter (old ++ new))).map (·.1))
    ∧ ∀ s : RuleSettings, LoadThenStore.info.Admits s.thresholds →
      let m' := m.withTasks ts
      ∃ n, s.threshold "min_tasks" = .ok (.int n)
        ∧ LoadThenStore.rule.evaluate m s = (LoadThenStore.reports m (.int n)).mapM (·.2)
        ∧ LoadThenStore.rule.evaluate m' s = (LoadThenStore.reports m' (.int n)).mapM (·.2)
        ∧ (LoadThenStore.reports m (.int n)).map (·.1)
          ⊆ (LoadThenStore.reports m' (.int n)).map (·.1)
        ∧ ∀ e, LoadThenStore.rule.evaluate m' s = .error e →
          e = .ofNumeral .unwritable ∧ LoadThenStore.HasUnwritable m := by
  refine ⟨⟨HandlerSafety.rule_quietedByLocks, UnguardedAccess.rule_quietedByLocks⟩, ?_, ?_⟩
  · intro rs s s' ps qs hs hs' hadmits m'
    obtain ⟨t, all, ht, hall⟩ := HandlerSafety.exists_patterns hadmits
    obtain rfl := Except.ok.inj (hs'.symm.trans ht)
    obtain ⟨old, new, hold, rfl⟩ := HandlerSafety.patterns_append hall
    refine ⟨old, new, hold, hall, HandlerSafety.evaluate_eq hs hold,
      HandlerSafety.evaluate_eq hs' hall, HandlerSafety.sites_subset fun call hcall => ?_⟩
    unfold HandlerSafety.isRouter at hcall ⊢
    rw [List.any_append, hcall, Bool.true_or]
  · intro s hadmits m'
    obtain ⟨n, hn⟩ := hadmits.exists_count "min_tasks" rfl
    exact ⟨n, hn, LoadThenStore.evaluate_eq hn rfl, LoadThenStore.evaluate_eq hn rfl,
      LoadThenStore.sites_subset (.int n), LoadThenStore.evaluate_failsOnly hn rfl⟩

/-- A unit with a handler and a replicated task that write to `x`. -/
def HandlerSafety.writtenByHandler : Model :=
  UnguardedAccess.writtenByMany.withRegistrations [{ call := "http.HandleFunc", handler := "f" }]

/-- The same unit with one more task and one more registration. -/
def HandlerSafety.servedByHandler : Model :=
  (writtenByHandler.withTasks [{ name := "v", entry := "f" }]).withRegistrations
    [{ call := "Serve", handler := "f" }]

/-- The default patterns and one more. -/
def HandlerSafety.morePatterns : RuleSettings :=
  { info.defaults with
    thresholds := [("handler_patterns", .texts (defaultPatterns ++ ["^Serve$"]))] }

theorem HandlerSafety.morePatterns_admitted [CharacterNames] :
    info.Admits morePatterns.thresholds := by
  intro name spec hspec
  obtain ⟨before, after, hsplit, _⟩ := List.lookup_eq_some_iff.mp hspec
  have hmem : (name, spec) ∈ info.thresholds := by simp [hsplit]
  obtain ⟨rfl, rfl⟩ := Prod.mk.inj (List.mem_singleton.mp hmem)
  have hserve : ∃ q, Pattern.parse "^Serve$" = .ok q :=
    Pattern.exists_of_isOk_nameless (by decide +kernel)
  refine ⟨_, rfl, .patterns (List.forall_mem_append.mpr ⟨parse_defaultPatterns, ?_⟩)⟩
  exact List.forall_mem_singleton.mpr hserve

/-- A unit with a store in each of two functions, the first of which enough tasks run. A load in the
    other one is on the given line. -/
def LoadThenStore.twoStores (line : Int) : Model where
  unit := "u"
  functions := [{ name := "f" }, { name := "g" }]
  tasks := [{ name := "a", entry := "f", replicated := true }, { name := "b", entry := "g" }]
  maps := [{
    name := "m"
    operations := [
      { action := .load, key := "k", function := "f", missBlock := some 0 },
      { action := .store, key := "k", function := "f" },
      { action := .load, key := "k", function := "g", missBlock := some 0
        location := some ⟨"u", line, 0⟩ },
      { action := .store, key := "k", function := "g" }] }]

namespace LoadThenStore

theorem dominators_single : FlowGraph.single.dominators = [(0, [0])] := by cbv

/-- The store in the first function is reported. -/
theorem sites_twoStores (line : Int) : (reports (twoStores line) (.int 2)).map (·.1) ≠ [] := by
  have hdoms : (twoStores line).dominators "f" = [(0, [0])] := dominators_single
  let load : MapOperation := { action := .load, key := "k", function := "f", missBlock := some 0 }
  let store : MapOperation := { action := .store, key := "k", function := "f" }
  refine List.ne_nil_of_mem ((mem_sites_iff (twoStores line) (.int 2) _ store).mpr
    ⟨List.mem_cons_self, List.mem_cons_of_mem _ List.mem_cons_self, rfl, load, ?_⟩)
  rw [hdoms]
  rfl

/-- The same unit with one more task for the second function. -/
def twoStoresRun (line : Int) : Model := (twoStores line).withTasks [{ name := "c", entry := "g" }]

/-- With one more task the rule has a load to show, and fails if it is on a line that cannot be
    written. -/
theorem evaluate_twoStoresRun {line : Int} (h : Text.isWritable line = false) :
    rule.evaluate (twoStoresRun line) info.defaults = .error (.ofNumeral .unwritable) := by
  have hdoms : (twoStoresRun line).dominators "g" = [(0, [0])] := dominators_single
  let load : MapOperation :=
    { action := .load, key := "k", function := "g", missBlock := some 0
      location := some ⟨"u", line, 0⟩ }
  let store : MapOperation := { action := .store, key := "k", function := "g" }
  have hreport := (mem_reports_iff (twoStoresRun line) (.int 2) _).mpr
    ⟨_, List.mem_cons_self, store, by simp [store], rfl, load, by rw [hdoms]; rfl, rfl⟩
  cases hrun : rule.evaluate (twoStoresRun line) info.defaults with
  | error e => rw [(evaluate_failsOnly (t := .int 2) rfl rfl e hrun).1]
  | ok cs =>
      rw [evaluate_eq (t := .int 2) rfl rfl] at hrun
      obtain ⟨c, hc⟩ := exists_of_mapM_eq_ok hrun hreport
      obtain ⟨text, htext, _⟩ := (bind_eq_ok_iff _ _ _).mp hc
      have hwritten : (Location.mk "u" line 0).written.mapError Fault.ofNumeral = .ok text := htext
      rw [Location.written, h] at hwritten
      cases hwritten

end LoadThenStore

open scoped CharacterNames

/-- Another section, another task, another registration and another pattern; and a task that makes
    the rule about maps fail. -/
theorem races_monotone_twoStores :
    (∃ old new, HandlerSafety.rule.evaluate HandlerSafety.writtenByHandler
        HandlerSafety.info.defaults = .ok old
      ∧ HandlerSafety.rule.evaluate (HandlerSafety.writtenByHandler.withSections
        [{ lock := "mu", function := "f" }]) HandlerSafety.info.defaults = .ok new
      ∧ new.Sublist old)
    ∧ (∃ old new, Threshold.patterns (.texts HandlerSafety.defaultPatterns) = .ok old
      ∧ (HandlerSafety.reports HandlerSafety.writtenByHandler
        (HandlerSafety.isRouter old)).map (·.1)
        ⊆ (HandlerSafety.reports HandlerSafety.servedByHandler
          (HandlerSafety.isRouter (old ++ new))).map (·.1))
    ∧ (LoadThenStore.reports (LoadThenStore.twoStores 7) (.int 2)).map (·.1) ≠ []
    ∧ (LoadThenStore.reports (LoadThenStore.twoStores 7) (.int 2)).map (·.1)
      ⊆ (LoadThenStore.reports (LoadThenStore.twoStoresRun 7) (.int 2)).map (·.1)
    ∧ LoadThenStore.rule.evaluate (LoadThenStore.twoStoresRun (Nat.pow 10 4300))
      LoadThenStore.info.defaults = .error (.ofNumeral .unwritable) := by
  refine ⟨?_, ?_, LoadThenStore.sites_twoStores 7, ?_,
    LoadThenStore.evaluate_twoStoresRun (by decide +kernel)⟩
  · have hadmits := admits_defaults (r := HandlerSafety.rule) (by simp [rules])
    exact (races_monotone HandlerSafety.writtenByHandler []).1.1 _ _ hadmits (List.nil_subset _)
  · obtain ⟨old, new, hold, _, _, _, hsites⟩ :=
      (races_monotone HandlerSafety.writtenByHandler [{ name := "v", entry := "f" }]).2.1
        [{ call := "Serve", handler := "f" }] HandlerSafety.info.defaults HandlerSafety.morePatterns
        HandlerSafety.defaultPatterns ["^Serve$"] rfl rfl HandlerSafety.morePatterns_admitted
    exact ⟨old, new, hold, hsites⟩
  · have hadmits := admits_defaults (r := LoadThenStore.rule) (by simp [rules])
    obtain ⟨n, hn, _, _, hsites, _⟩ :=
      (races_monotone (LoadThenStore.twoStores 7) [{ name := "c", entry := "g" }]).2.2
        LoadThenStore.info.defaults hadmits
    have htwo : LoadThenStore.info.defaults.threshold "min_tasks" = .ok (.int 2) := rfl
    obtain rfl : n = 2 := by simpa using hn.symm.trans htwo
    exact hsites

end Hazard
