import Hazard.Proofs.Model.Calls
import Hazard.Proofs.Rule.Returns
import Hazard.Proofs.Text.Order
import Mathlib.Data.List.Sigma

set_option autoImplicit false

/-! # Where findings are made

A candidate tells what was found and where in the source, but not which access or which operation of
the unit it is about: two of them can look the same. Here the findings of the rules about races are
paired with what they are about. The rules themselves report the same candidates without their
sites. -/

namespace Hazard

/-! ## Positions

Two accesses of a function can be equal in all they say, and so can two operations on a map or two
returns. Where every one of them is to be told from the others, it is told by its position. -/

section Positions

variable {α β κ : Type}

theorem map_filterMap_sublist {f : α → Option β} {key : α → κ} {mark : β → κ}
    (h : ∀ x y, f x = some y → mark y = key x) (xs : List α) :
    ((xs.filterMap f).map mark).Sublist (xs.map key) := by
  induction xs with
  | nil => exact List.Sublist.refl _
  | cons x xs ih =>
      rw [List.filterMap_cons]
      cases hx : f x with
      | none => exact ih.cons _
      | some y =>
          simp only [List.map_cons, h x y hx]
          exact ih.cons_cons _

/-- Lists for different keys that mark all their items by the key have no item in common. -/
theorem nodup_flatMap_of_mark {xs : List α} {f : α → List β} (key : α → κ) (mark : β → κ)
    (hxs : (xs.map key).Nodup) (hmark : ∀ x ∈ xs, ∀ y ∈ f x, mark y = key x)
    (hf : ∀ x ∈ xs, (f x).Nodup) : (xs.flatMap f).Nodup := by
  refine List.nodup_flatMap.mpr ⟨hf, ?_⟩
  rw [List.Nodup, List.pairwise_map] at hxs
  refine hxs.imp_of_mem fun {x x'} hx hx' hne y hy hy' => hne ?_
  rw [← hmark x hx y hy, hmark x' hx' y hy']

/-- The results for the items that have one, each with the position of its item. -/
def resultsAt (g : α → Option β) (xs : List α) : List (Nat × β) :=
  xs.zipIdx.filterMap fun x => (g x.1).map fun y => (x.2, y)

theorem map_snd_resultsAt (g : α → Option β) (xs : List α) :
    (resultsAt g xs).map (·.2) = xs.filterMap g := by
  conv_rhs => rw [← List.zipIdx_map_fst 0 xs, List.filterMap_map]
  rw [resultsAt, List.map_filterMap]
  refine List.filterMap_congr fun x _ => ?_
  simp [Function.comp_def]

theorem resultsAt_nodup (g : α → Option β) (xs : List α) :
    ((resultsAt g xs).map (·.1)).Nodup := by
  refine (List.nodup_zipIdx_map_snd xs).sublist (map_filterMap_sublist ?_ _)
  intro x y hy
  obtain ⟨_, _, rfl⟩ := Option.map_eq_some_iff.mp hy
  rfl

theorem mem_resultsAt_iff (g : α → Option β) (xs : List α) (i : Nat) (y : β) :
    (i, y) ∈ resultsAt g xs ↔ ∃ x, xs[i]? = some x ∧ g x = some y := by
  simp only [resultsAt, List.mem_filterMap, Option.map_eq_some_iff, Prod.mk.injEq]
  constructor
  · rintro ⟨⟨x, j⟩, hx, y', hy, rfl, rfl⟩
    exact ⟨x, List.mem_zipIdx_iff_getElem?.mp hx, hy⟩
  · rintro ⟨x, hx, hy⟩
    exact ⟨(x, i), List.mem_zipIdx_iff_getElem?.mpr hx, y, hy, rfl, rfl⟩

/-- The item is the first one of the list that has the property. -/
def FirstIn (P : α → Prop) (xs : List α) (x : α) : Prop :=
  ∃ before after, xs = before ++ x :: after ∧ P x ∧ ∀ y ∈ before, ¬P y

theorem find?_eq_some_iff_firstIn {p : α → Bool} {P : α → Prop} (h : ∀ x, p x = true ↔ P x)
    (xs : List α) (x : α) : xs.find? p = some x ↔ FirstIn P xs x := by
  simp only [List.find?_eq_some_iff_append, Bool.not_eq_true', ← Bool.not_eq_true, h, FirstIn]
  constructor
  · rintro ⟨hx, before, after, hsplit, hbefore⟩
    exact ⟨before, after, hsplit, hx, hbefore⟩
  · rintro ⟨before, after, hsplit, hx, hbefore⟩
    exact ⟨hx, before, after, hsplit, hbefore⟩

theorem exists_firstIn_iff (P : α → Prop) (xs : List α) :
    (∃ x, FirstIn P xs x) ↔ ∃ x ∈ xs, P x := by
  classical
  simp only [← find?_eq_some_iff_firstIn (fun x => decide_eq_true_iff (p := P x)),
    ← Option.isSome_iff_exists, List.find?_isSome, decide_eq_true_eq]

end Positions

/-! ## Accesses in blocks -/

namespace Model

variable (m : Model)

theorem mem_accessesOf_iff (binding : String) (f : Function) (a : Access) :
    (f, a) ∈ m.accessesOf binding ↔
      f ∈ m.functions ∧ a ∈ f.accesses ∧ a.binding = binding := by
  simp only [accessesOf, List.mem_flatMap, List.mem_map, List.mem_filter, beq_iff_eq,
    Prod.mk.injEq]
  constructor
  · rintro ⟨g, hg, x, ⟨hx, hbinding⟩, rfl, rfl⟩
    exact ⟨hg, hx, hbinding⟩
  · rintro ⟨hf, ha, hbinding⟩
    exact ⟨f, hf, a, ⟨ha, hbinding⟩, rfl, rfl⟩

/-- Control reaches a block in the function that a name stands for. -/
theorem isReachable_iff (name : String) (block : Int) :
    m.isReachable name block = true ↔
      ∃ f, m.function? name = some f ∧ f.graph.Reachable block := by
  simp only [isReachable, Option.any_eq_true, List.contains_iff_mem, FlowGraph.mem_reachable_iff]

theorem DistinctFunctions.isReachable_name {m : Model} (h : m.DistinctFunctions) {f : Function}
    (hf : f ∈ m.functions) (block : Int) :
    m.isReachable f.name block = true ↔ f.graph.Reachable block := by
  rw [isReachable_iff, h.function?_name hf]
  simp

end Model

/-! ## Handlers that share state -/

/-- A function is a handler if some registration of it is of the given kind. -/
theorem Model.mem_handlers_iff (m : Model) (isRouter : String → Bool) (f : Function) :
    f ∈ (m.handlers isRouter).map (·.2) ↔
      ∃ r ∈ m.registrations, isRouter r.call = true ∧ m.function? r.handler = some f := by
  simp only [handlers, List.mem_map, List.mem_filterMap]
  constructor
  · rintro ⟨_, ⟨r, hr, hfound⟩, rfl⟩
    obtain ⟨f, hf, rfl⟩ := Option.map_eq_some_iff.mp hfound
    obtain ⟨hr, hcall⟩ := List.mem_filter.mp (mem_of_mem_novel hr).1
    exact ⟨r, hr, (Bool.and_eq_true_iff.mp hcall).1, hf⟩
  · rintro ⟨r, hr, hcall, hf⟩
    let named := m.registrations.filter fun r => isRouter r.call && (m.function? r.handler).isSome
    have hnamed : r ∈ named := List.mem_filter.mpr ⟨hr, by simp [hcall, hf]⟩
    -- Of several registrations of the function the first one is kept.
    obtain ⟨r', hr', hhandler⟩ := List.mem_map.mp
      ((mem_keys_novel_iff Registration.handler named r.handler).mpr (List.mem_map_of_mem hnamed))
    exact ⟨(r', f), ⟨r', hr', by rw [hhandler, hf]; rfl⟩, rfl⟩

namespace HandlerSafety

/-- The findings, each with the handler, the function that it runs and the access there. -/
def reports (m : Model) (isRouter : String → Bool) :
    List ((Function × Function × Access) × Candidate) :=
  let registered := m.handlers isRouter
  let running := runners m (registered.map (·.2))
  registered.flatMap fun (r, h) =>
    (m.reachableFunctions h.name).flatMap fun name =>
      match m.function? name with
      | none => []
      | some f => f.accesses.filterMap fun a =>
        (finding? m running r h f a).map fun c => ((h, f, a), c)

theorem findings_eq (m : Model) (isRouter : String → Bool) :
    findings m isRouter = (reports m isRouter).map (·.2) := by
  unfold findings reports
  rw [List.map_flatMap]
  refine List.flatMap_congr fun handler _ => ?_
  rw [List.map_flatMap]
  refine List.flatMap_congr fun name _ => ?_
  cases m.function? name with
  | none => rfl
  | some f => simp [List.map_filterMap, Function.comp_def]

/-- The calls that register a handler by some patterns. -/
def isRouter (patterns : List Pattern) (call : String) : Bool := patterns.any (·.search call)

theorem evaluate_eq [CharacterNames] {m : Model} {s : RuleSettings} {t : Value}
    {patterns : List Pattern} (ht : s.threshold "handler_patterns" = .ok t)
    (hpatterns : Threshold.patterns t = .ok patterns) :
    rule.evaluate m s = .ok ((reports m (isRouter patterns)).map (·.2)) := by
  refine (bind_eq_ok_iff _ _ _).mpr ⟨t, ht, (bind_eq_ok_iff _ _ _).mpr ⟨patterns, hpatterns, ?_⟩⟩
  rw [findings_eq]
  rfl

/-- Who else uses a binding: another handler that runs a function with an access to it, or a task
    that does so without having its own copy. -/
theorem mem_sharers_iff (m : Model) (handlers : List Function) (self binding text : String) :
    text ∈ sharers m (runners m handlers) self binding ↔ ∃ site ∈ m.accessesOf binding,
      (∃ h ∈ handlers, h.name ≠ self ∧ site.1.name ∈ m.reachableFunctions h.name
        ∧ s!"handler '{h.name}'" = text)
      ∨ ∃ t ∈ m.sharingTasks site.1.name binding, s!"task '{t.name}'" = text := by
  simp only [sharers, runners, Text.mem_sortedSet, List.mem_append, List.mem_map, List.mem_filter,
    List.mem_flatMap, List.any_eq_true, List.contains_iff_mem, Bool.and_eq_true, bne_iff_ne,
    Model.sharingAmong_taskReach]
  constructor
  · rintro (⟨_, ⟨⟨h, hh, rfl⟩, hself, _, ⟨site, hsite, rfl⟩, hreach⟩, htext⟩ |
      ⟨t, ⟨_, ⟨site, hsite, rfl⟩, ht⟩, htext⟩)
    · exact ⟨site, hsite, .inl ⟨h, hh, hself, hreach, htext⟩⟩
    · exact ⟨site, hsite, .inr ⟨t, ht, htext⟩⟩
  · rintro ⟨site, hsite, ⟨h, hh, hself, hreach, htext⟩ | ⟨t, ht, htext⟩⟩
    · exact .inl ⟨_, ⟨⟨h, hh, rfl⟩, hself, _, ⟨site, hsite, rfl⟩, hreach⟩, htext⟩
    · exact .inr ⟨t, ⟨_, ⟨site, hsite, rfl⟩, ht⟩, htext⟩

/-- An access that a handler makes to a binding of others without a lock that protects it. -/
structure Exposed (m : Model) (handlers : List Function) (h f : Function) (a : Access)
    (b : Binding) : Prop where
  binding : m.binding? a.binding = some b
  contested : b.isContested = true
  reachable : m.isReachable f.name a.block = true
  unguarded : m.isGuarded f.name a.block b.name = false
  shared : sharers m (runners m handlers) h.name b.name ≠ []

/-- What the rule finds out about one access. -/
theorem finding?_eq_some_iff (m : Model) (handlers : List Function) (r : Registration)
    (h f : Function) (a : Access) (c : Candidate) :
    finding? m (runners m handlers) r h f a = some c ↔ ∃ b, Exposed m handlers h f a b
      ∧ c = finding m r h f a b (sharers m (runners m handlers) h.name b.name) := by
  simp only [finding?, Option.bind_eq_bind, Option.bind_eq_some_iff]
  constructor
  · rintro ⟨b, hb, hc⟩
    split_ifs at hc with hsite hshared
    simp only [Bool.and_eq_true, Bool.not_eq_true'] at hsite
    exact ⟨b, ⟨hb, hsite.1.1, hsite.1.2, hsite.2, by simpa using hshared⟩,
      (Option.some.inj hc).symm⟩
  · rintro ⟨b, ⟨hb, hcontested, hreachable, hunguarded, hshared⟩, rfl⟩
    refine ⟨b, hb, ?_⟩
    rw [if_pos (by simp [hcontested, hreachable, hunguarded]), if_neg (by simpa using hshared)]

theorem exists_finding?_iff (m : Model) (handlers : List Function) (r : Registration)
    (h f : Function) (a : Access) :
    (∃ c, finding? m (runners m handlers) r h f a = some c) ↔ ∃ b, Exposed m handlers h f a b := by
  simp only [finding?_eq_some_iff]
  constructor
  · rintro ⟨_, b, hexposed, rfl⟩
    exact ⟨b, hexposed⟩
  · rintro ⟨b, hexposed⟩
    exact ⟨_, b, hexposed, rfl⟩

/-- Which accesses are reported. -/
theorem mem_sites_iff (m : Model) (isRouter : String → Bool) (h f : Function) (a : Access) :
    (h, f, a) ∈ (reports m isRouter).map (·.1) ↔
      h ∈ (m.handlers isRouter).map (·.2) ∧ f.name ∈ m.reachableFunctions h.name
        ∧ m.function? f.name = some f ∧ a ∈ f.accesses
        ∧ ∃ b, Exposed m ((m.handlers isRouter).map (·.2)) h f a b := by
  simp only [reports, List.mem_map, List.mem_flatMap]
  constructor
  · rintro ⟨⟨_, c⟩, ⟨⟨r, h'⟩, hregistered, name, hname, hfound⟩, rfl⟩
    dsimp only at hname hfound
    split at hfound
    next => simp at hfound
    next f' hf' =>
      obtain ⟨a', ha', hc⟩ := List.mem_filterMap.mp hfound
      obtain ⟨c', hc', hsite⟩ := Option.map_eq_some_iff.mp hc
      obtain ⟨⟨rfl, rfl, rfl⟩, rfl⟩ : ((h' = h ∧ f' = f ∧ a' = a) ∧ c' = c) := by
        simpa using hsite
      obtain rfl : f'.name = name := by simpa using List.find?_some hf'
      have hexposed := (exists_finding?_iff m _ r h' f' a').mp ⟨c', hc'⟩
      exact ⟨⟨(r, h'), hregistered, rfl⟩, hname, hf', ha', hexposed⟩
  · rintro ⟨⟨⟨r, h'⟩, hregistered, rfl⟩, hname, hf, ha, hexposed⟩
    obtain ⟨c, hc⟩ := (exists_finding?_iff m _ r h' f a).mpr hexposed
    refine ⟨((h', f, a), c), ⟨(r, h'), hregistered, f.name, hname, ?_⟩, rfl⟩
    rw [hf]
    exact List.mem_filterMap.mpr ⟨a, ha, by rw [hc]; rfl⟩

end HandlerSafety

/-! ## Tasks that share state -/

theorem Threshold.isAbove_eq {t : Value} {n : Number} (h : t.number? = some n) (count : Nat) :
    isAbove t count = .ok ((Number.int count).lt n) := by
  rw [isAbove, number, h]
  rfl

namespace UnguardedAccess

/-- How many tasks share a binding. -/
def sharedWeight (m : Model) (binding : String) : Nat :=
  Task.totalWeight (sharingTasks (sharedSites m m.taskReach binding))

/-- The findings for one binding, each with the function and the access in it. -/
def reportsFor (m : Model) (minTasks : Number) (b : Binding) :
    List ((Function × Access) × Candidate) :=
  let sites := sharedSites m m.taskReach b.name
  let tasks := Text.sorted ((sharingTasks sites).map (·.name))
  if b.isContested && !(Number.int (sharedWeight m b.name)).lt minTasks then
    (sites.filter fun (f, a, _) => !m.isGuarded f.name a.block b.name).map fun (f, a, _) =>
      ((f, a), finding m b tasks f a)
  else []

/-- The findings, each with the function and the access in it. -/
def reports (m : Model) (minTasks : Number) : List ((Function × Access) × Candidate) :=
  m.bindings.flatMap (reportsFor m minTasks)

theorem findingsFor_eq (m : Model) {t : Value} {n : Number} (h : t.number? = some n)
    (b : Binding) : findingsFor m m.taskReach t b = .ok ((reportsFor m n b).map (·.2)) := by
  simp only [findingsFor, reportsFor, Threshold.isAbove_eq h, ← sharedWeight.eq_def]
  cases b.isContested with
  | false => rfl
  | true =>
      cases (Number.int (sharedWeight m b.name)).lt n with
      | true => rfl
      | false => simp [findings, pure, Except.pure, bind, Except.bind, Function.comp_def]

theorem evaluate_eq {m : Model} {s : RuleSettings} {t : Value} {n : Number}
    (ht : s.threshold "min_tasks" = .ok t) (hn : t.number? = some n) :
    rule.evaluate m s = .ok ((reports m n).map (·.2)) := by
  have hall := mapM_eq_ok_map fun b (_ : b ∈ m.bindings) => findingsFor_eq m hn b
  refine (bind_eq_ok_iff _ _ _).mpr ⟨t, ht, (bind_eq_ok_iff _ _ _).mpr ⟨_, hall, ?_⟩⟩
  rw [reports, List.map_flatMap]
  rfl

/-- The access is made by some task that does not have its own copy of the binding. -/
structure Shared (m : Model) (binding : String) (f : Function) (a : Access) : Prop where
  access : (f, a) ∈ m.accessesOf binding
  reachable : m.isReachable f.name a.block = true
  tasks : m.sharingTasks f.name binding ≠ []

theorem mem_sharedSites_iff (m : Model) (binding : String) (f : Function) (a : Access)
    (tasks : List Task) :
    (f, a, tasks) ∈ sharedSites m m.taskReach binding ↔
      Shared m binding f a ∧ tasks = m.sharingTasks f.name binding := by
  simp only [sharedSites, Model.sharingAmong_taskReach, List.mem_filterMap]
  constructor
  · rintro ⟨site, hsite, h⟩
    split_ifs at h with hshared
    obtain ⟨rfl, rfl, rfl⟩ : site.1 = f ∧ site.2 = a
        ∧ m.sharingTasks site.1.name binding = tasks := by simpa using h
    simp only [Bool.and_eq_true, Bool.not_eq_true', List.isEmpty_eq_false_iff] at hshared
    exact ⟨⟨hsite, hshared.2, hshared.1⟩, rfl⟩
  · rintro ⟨⟨haccess, hreachable, htasks⟩, rfl⟩
    exact ⟨(f, a), haccess, if_pos (by simp [hreachable, htasks])⟩

/-- Which accesses are reported for a binding. -/
theorem mem_sitesFor_iff (m : Model) (minTasks : Number) (b : Binding) (f : Function) (a : Access) :
    (f, a) ∈ (reportsFor m minTasks b).map (·.1) ↔
      b.isContested = true ∧ (Number.int (sharedWeight m b.name)).lt minTasks = false
        ∧ Shared m b.name f a ∧ m.isGuarded f.name a.block b.name = false := by
  unfold reportsFor
  dsimp only
  split_ifs with henough
  · rw [Bool.and_eq_true, Bool.not_eq_true'] at henough
    simp only [henough, List.map_map, List.mem_map, List.mem_filter, true_and]
    constructor
    · rintro ⟨⟨f', a', tasks⟩, ⟨hsite, hunguarded⟩, hfa⟩
      obtain ⟨rfl, rfl⟩ : f' = f ∧ a' = a := by simpa using hfa
      exact ⟨((mem_sharedSites_iff m b.name f' a' tasks).mp hsite).1, by simpa using hunguarded⟩
    · rintro ⟨hshared, hunguarded⟩
      refine ⟨(f, a, _), ⟨(mem_sharedSites_iff m b.name f a _).mpr ⟨hshared, rfl⟩, ?_⟩, rfl⟩
      simpa using hunguarded
  · refine iff_of_false (by simp) fun h => henough ?_
    simp [h.1, h.2.1]

/-- Which accesses are reported. -/
theorem mem_sites_iff (m : Model) (minTasks : Number) (f : Function) (a : Access) :
    (f, a) ∈ (reports m minTasks).map (·.1) ↔ ∃ b ∈ m.bindings,
      b.isContested = true ∧ (Number.int (sharedWeight m b.name)).lt minTasks = false
        ∧ Shared m b.name f a ∧ m.isGuarded f.name a.block b.name = false := by
  rw [reports, List.map_flatMap, List.mem_flatMap]
  simp only [mem_sitesFor_iff]

end UnguardedAccess

/-! ## Look-ups followed by an update -/

namespace LoadThenStore

/-- The findings for the operations of one function on one map, each with the map and the store. A
    finding can fail when its load has a location that cannot be written. -/
def reportsIn (m : Model) (minTasks : Number) (map : ConcurrentMap) (function : String) :
    List ((ConcurrentMap × MapOperation) × Except Fault Candidate) :=
  if (Number.int (Task.totalWeight (m.tasksReaching function))).lt minTasks then []
  else
    let ops := map.operations.filter (·.function == function)
    let pairs := ops.filterMap fun store =>
      (loadBefore? (m.dominators function) ops store).map fun load => (store, load)
    pairs.map fun (store, load) => ((map, store), finding m map function store load)

/-- The findings, each with the map and the store. -/
def reports (m : Model) (minTasks : Number) :
    List ((ConcurrentMap × MapOperation) × Except Fault Candidate) :=
  m.maps.flatMap fun map =>
    (map.operations.map (·.function)).eraseDups.flatMap (reportsIn m minTasks map)

theorem findingsIn_eq (m : Model) {t : Value} {n : Number} (h : t.number? = some n)
    (map : ConcurrentMap) (function : String) :
    findingsIn m t map function = (reportsIn m n map function).mapM (·.2) := by
  simp only [findingsIn, reportsIn, Threshold.isAbove_eq h]
  cases (Number.int (Task.totalWeight (m.tasksReaching function))).lt n with
  | true => rfl
  | false =>
      rw [if_neg Bool.false_ne_true, List.mapM_map]
      rfl

theorem evaluate_eq {m : Model} {s : RuleSettings} {t : Value} {n : Number}
    (ht : s.threshold "min_tasks" = .ok t) (hn : t.number? = some n) :
    rule.evaluate m s = (reports m n).mapM (·.2) := by
  have hfindingsFor : findingsFor m t = fun map =>
      ((map.operations.map (·.function)).eraseDups.flatMap (reportsIn m n map)).mapM (·.2) := by
    funext map
    rw [mapM_flatMap, ← funext (findingsIn_eq m hn map)]
    rfl
  rw [reports, mapM_flatMap, ← hfindingsFor]
  show (s.threshold "min_tasks" >>= fun t => _) = _
  rw [ht]
  rfl

/-- What is reported, with which load. -/
theorem mem_reports_iff (m : Model) (minTasks : Number)
    (report : (ConcurrentMap × MapOperation) × Except Fault Candidate) :
    report ∈ reports m minTasks ↔ ∃ map ∈ m.maps, ∃ store ∈ map.operations,
      (Number.int (Task.totalWeight (m.tasksReaching store.function))).lt minTasks = false
        ∧ ∃ load, loadBefore? (m.dominators store.function)
          (map.operations.filter (·.function == store.function)) store = some load
        ∧ report = ((map, store), finding m map store.function store load) := by
  simp only [reports, List.mem_flatMap, List.mem_eraseDups, List.mem_map]
  constructor
  · rintro ⟨map, hmap, _, ⟨o, _, rfl⟩, hreport⟩
    unfold reportsIn at hreport
    split_ifs at hreport with hfew
    · simp at hreport
    · obtain ⟨⟨store, load⟩, hpair, rfl⟩ := List.mem_map.mp hreport
      obtain ⟨store', hstore, hpair⟩ := List.mem_filterMap.mp hpair
      obtain ⟨load', hload, heq⟩ := Option.map_eq_some_iff.mp hpair
      obtain ⟨rfl, rfl⟩ := Prod.mk.inj heq
      obtain ⟨hstore, hfunction⟩ := List.mem_filter.mp hstore
      rw [beq_iff_eq] at hfunction
      rw [← hfunction] at hfew hload ⊢
      exact ⟨map, hmap, store', hstore, by simpa using hfew, load', hload, rfl⟩
  · rintro ⟨map, hmap, store, hstore, henough, load, hload, rfl⟩
    refine ⟨map, hmap, store.function, ⟨store, hstore, rfl⟩, ?_⟩
    unfold reportsIn
    rw [if_neg (by simp [henough])]
    refine List.mem_map.mpr ⟨(store, load), List.mem_filterMap.mpr ⟨store, ?_, ?_⟩, rfl⟩
    · exact List.mem_filter.mpr ⟨hstore, beq_self_eq_true _⟩
    · rw [hload]
      rfl

/-- Which stores are reported. -/
theorem mem_sites_iff (m : Model) (minTasks : Number) (map : ConcurrentMap) (store : MapOperation) :
    (map, store) ∈ (reports m minTasks).map (·.1) ↔
      map ∈ m.maps ∧ store ∈ map.operations
        ∧ (Number.int (Task.totalWeight (m.tasksReaching store.function))).lt minTasks = false
        ∧ ∃ load, loadBefore? (m.dominators store.function)
          (map.operations.filter (·.function == store.function)) store = some load := by
  rw [List.mem_map]
  constructor
  · rintro ⟨report, hreport, hsite⟩
    obtain ⟨map', hmap, store', hstore, henough, load, hload, rfl⟩ :=
      (mem_reports_iff m minTasks report).mp hreport
    obtain ⟨rfl, rfl⟩ := Prod.mk.inj hsite
    exact ⟨hmap, hstore, henough, load, hload⟩
  · rintro ⟨hmap, hstore, henough, load, hload⟩
    exact ⟨_, (mem_reports_iff m minTasks _).mpr
      ⟨map, hmap, store, hstore, henough, load, hload, rfl⟩, rfl⟩

end LoadThenStore

end Hazard
