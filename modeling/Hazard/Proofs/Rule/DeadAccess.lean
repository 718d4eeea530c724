import Hazard.Proofs.Rule.HandlerAccess
import Mathlib.Data.List.Forall2
import Mathlib.Data.List.Perm.Subperm
import Mathlib.Data.List.Sort

set_option autoImplicit false

/-! # Accesses that control cannot reach

An access in a block that control cannot reach never happens, and no rule about races reports it.
What is found out about the other accesses could still depend on it, since an access also tells who
uses its binding. The rule about unguarded accesses asks only of accesses that control can reach, so
nothing changes for it when others are left out. The rule about handlers asks that of the accesses
that it reports, and not of those by which somebody else is said to share the binding. So a handler
or a task can be named, or be the reason for a report, by an access that never happens.

Both rules are compared through the unit without all dead accesses (`Model.pruned`), which is the
same before and after one of them is left out. The main statement says what that does to either rule
(`evaluate_dropAccess`). -/

namespace Hazard

/-! ## Lists with items left out -/

theorem filter_eraseIdx {α : Type} {p : α → Bool} {x : α} (hp : p x = false) (xs : List α) (i : Nat)
    (hx : xs[i]? = some x) : (xs.eraseIdx i).filter p = xs.filter p := by
  induction xs generalizing i with
  | nil => rfl
  | cons y ys ih =>
      cases i with
      | zero =>
          obtain rfl : y = x := by simpa using hx
          rw [List.eraseIdx_cons_zero, List.filter_cons_of_neg (by simp [hp])]
      | succ i =>
          have hrest := ih i (by simpa using hx)
          simp only [List.eraseIdx_cons_succ, List.filter_cons, hrest]

theorem sublistForall₂_filterMap {α β : Type} {R : β → β → Prop} {g g' : α → Option β}
    (h : ∀ x y, g x = some y → ∃ y', g' x = some y' ∧ R y y') (xs : List α) :
    List.SublistForall₂ R (xs.filterMap g) (xs.filterMap g') := by
  induction xs with
  | nil => exact .nil
  | cons x xs ih =>
      cases hx : g x with
      | some y =>
          obtain ⟨y', hx', hy⟩ := h x y hx
          rw [List.filterMap_cons_some hx, List.filterMap_cons_some hx']
          exact .cons hy ih
      | none =>
          rw [List.filterMap_cons_none hx]
          cases hx' : g' x with
          | none => rwa [List.filterMap_cons_none hx']
          | some y' =>
              rw [List.filterMap_cons_some hx']
              exact .cons_right ih

/-! ## Leaving out accesses -/

/-- The function without the accesses that control cannot reach. -/
def Function.pruned (f : Function) : Function :=
  { f with accesses := f.accesses.filter fun a => f.graph.Reachable a.block }

/-- The function without one access. -/
def Function.dropAccess (f : Function) (i : Nat) : Function :=
  { f with accesses := f.accesses.eraseIdx i }

theorem Function.pruned_dropAccess {f : Function} {i : Nat} {a : Access}
    (ha : f.accesses[i]? = some a) (hdead : ¬f.graph.Reachable a.block) :
    (f.dropAccess i).pruned = f.pruned := by
  have hleft := filter_eraseIdx (p := fun a => f.graph.Reachable a.block) (by simpa using hdead)
    f.accesses i ha
  exact congrArg (fun accesses => { f with accesses }) hleft

namespace Model

/-- The unit without the accesses that control cannot reach. -/
def pruned (m : Model) : Model := { m with functions := m.functions.map Function.pruned }

/-- The unit without one access of the function at position `k`. -/
def dropAccess (m : Model) (k i : Nat) : Model :=
  { m with functions := m.functions.modify k (·.dropAccess i) }

variable (m : Model)

/-- A dead access is not in the unit without dead accesses. -/
theorem pruned_dropAccess {m : Model} {k i : Nat} {f : Function} {a : Access}
    (hf : m.functions[k]? = some f) (ha : f.accesses[i]? = some a)
    (hdead : ¬f.graph.Reachable a.block) : (m.dropAccess k i).pruned = m.pruned := by
  have hfunctions : (m.functions.modify k (·.dropAccess i)).map Function.pruned
      = m.functions.map Function.pruned := by
    refine List.ext_getElem? fun j => ?_
    rw [List.getElem?_map, List.getElem?_modify, List.getElem?_map]
    by_cases hkj : k = j
    · subst hkj
      rw [hf]
      simp [Function.pruned_dropAccess ha hdead]
    · simp [hkj]
  simp only [pruned, dropAccess, hfunctions]

/-! ## What does not depend on dead accesses -/

theorem function?_pruned (name : String) :
    m.pruned.function? name = (m.function? name).map Function.pruned :=
  List.find?_map

theorem distinctFunctions_pruned : m.pruned.DistinctFunctions ↔ m.DistinctFunctions := by
  rw [DistinctFunctions, pruned, List.map_map]
  rfl

theorem callees_pruned : m.pruned.callees = m.callees := by
  funext name
  simp only [callees, function?_pruned, Option.isSome_map]
  cases m.function? name with
  | none => rfl
  | some f => rfl

theorem reachableFunctions_pruned : m.pruned.reachableFunctions = m.reachableFunctions := by
  funext entry
  simp only [reachableFunctions, function?_pruned, Option.isSome_map, callees_pruned]
  simp only [pruned, List.length_map]

theorem taskReach_pruned : m.pruned.taskReach = m.taskReach := by
  simp only [taskReach, reachableFunctions_pruned]
  rfl

theorem isReachable_pruned : m.pruned.isReachable = m.isReachable := by
  funext name block
  simp only [isReachable, function?_pruned, Option.any_map]
  rfl

theorem isGuarded_pruned : m.pruned.isGuarded = m.isGuarded := by
  funext name block binding
  simp only [isGuarded, function?_pruned]
  cases m.function? name with
  | none => rfl
  | some f => rfl

theorem locate_pruned (places : List (Option Location)) :
    m.pruned.locate places = m.locate places := by
  induction places with
  | nil => rfl
  | cons place rest ih =>
      cases place with
      | some loc => rfl
      | none => exact ih

theorem handlers_pruned (isRouter : String → Bool) :
    m.pruned.handlers isRouter = (m.handlers isRouter).map fun x => (x.1, x.2.pruned) := by
  simp only [handlers, function?_pruned, Option.isSome_map, Option.map_map, List.map_filterMap]
  rfl

theorem accessesOf_pruned (binding : String) :
    m.pruned.accessesOf binding
      = ((m.accessesOf binding).filter fun x => x.1.graph.Reachable x.2.block).map fun x =>
        (x.1.pruned, x.2) := by
  simp only [accessesOf, pruned, List.flatMap_map, List.filter_flatMap, List.map_flatMap,
    List.filter_map, List.map_map, Function.pruned, List.filter_filter]
  refine List.flatMap_congr fun f _ => ?_
  rw [List.filter_congr fun a _ => Bool.and_comm _ _]
  rfl

theorem runs_pruned (entry name : String) : m.pruned.Runs entry name ↔ m.Runs entry name := by
  rw [← mem_reachableFunctions_iff, reachableFunctions_pruned, mem_reachableFunctions_iff]

end Model

/-! ## Tasks that share state -/

namespace UnguardedAccess

variable {m : Model} (hfunctions : m.DistinctFunctions)

include hfunctions

theorem sharedSites_pruned (reach : List (Task × List String)) (binding : String) :
    sharedSites m.pruned reach binding
      = (sharedSites m reach binding).map fun x => (x.1.pruned, x.2) := by
  rw [sharedSites, Model.accessesOf_pruned, List.filterMap_map, List.filterMap_filter, sharedSites,
    List.map_filterMap]
  refine List.filterMap_congr fun x hx => ?_
  have hmem := ((m.mem_accessesOf_iff binding x.1 x.2).mp hx).1
  have hreach := hfunctions.isReachable_name hmem x.2.block
  simp only [Model.isReachable_pruned, Function.comp_apply, Function.pruned, decide_eq_true_eq,
    ← hreach]
  cases m.isReachable x.1.name x.2.block with
  | false => simp
  | true =>
      simp only [if_true, Bool.and_true]
      split_ifs <;> rfl

theorem findingsFor_pruned (reach : List (Task × List String)) (minTasks : Value) (b : Binding) :
    findingsFor m.pruned reach minTasks b = findingsFor m reach minTasks b := by
  have htasks : sharingTasks (sharedSites m.pruned reach b.name)
      = sharingTasks (sharedSites m reach b.name) := by
    rw [sharedSites_pruned hfunctions, sharingTasks, List.flatMap_map]
    rfl
  have hfindings : findings m.pruned b (sharedSites m.pruned reach b.name)
      = findings m b (sharedSites m reach b.name) := by
    simp only [findings, htasks]
    rw [sharedSites_pruned hfunctions, List.filter_map, List.map_map, Model.isGuarded_pruned]
    refine List.map_congr_left fun x _ => ?_
    simp only [Function.comp_apply, finding, Model.locate_pruned]
    rfl
  simp only [findingsFor, htasks, hfindings]

theorem evaluate_pruned (s : RuleSettings) : rule.evaluate m.pruned s = rule.evaluate m s := by
  simp only [rule, Model.taskReach_pruned, funext (findingsFor_pruned hfunctions _ _)]
  rfl

end UnguardedAccess

/-! ## Handlers that share state -/

namespace HandlerSafety

/-- An access that a handler makes without a lock that protects it, where control can reach it and
    the binding changes, and not atomically. It is reported if somebody else uses the binding. -/
structure Exposure where
  registration : Registration
  handler : Function
  function : Function
  access : Access
  binding : Binding

/-- The exposure at one access of a function that a handler runs. -/
def exposure? (m : Model) (r : Registration) (h f : Function) (a : Access) : Option Exposure := do
  let b ← m.binding? a.binding
  if b.isContested && m.isReachable f.name a.block && !m.isGuarded f.name a.block b.name then
    some ⟨r, h, f, a, b⟩
  else none

/-- The exposures of the handlers that are registered by the given calls. -/
def exposures (m : Model) (isRouter : String → Bool) : List Exposure :=
  (m.handlers isRouter).flatMap fun (r, h) =>
    (m.reachableFunctions h.name).flatMap fun name =>
      match m.function? name with
      | none => []
      | some f => f.accesses.filterMap (exposure? m r h f)

/-- Who uses a binding besides one of the handlers that are registered by the given calls. -/
def sharersOf (m : Model) (isRouter : String → Bool) (self binding : String) : List String :=
  sharers m (runners m ((m.handlers isRouter).map (·.2))) self binding

namespace Exposure

/-- The exposure without dead accesses in its functions. -/
def pruned (e : Exposure) : Exposure :=
  { e with handler := e.handler.pruned, function := e.function.pruned }

/-- The candidate for an exposure, if others share the binding. -/
def candidate? (m : Model) (shared : String → String → List String) (e : Exposure) :
    Option Candidate :=
  if (shared e.handler.name e.binding.name).isEmpty then none
  else some (finding m e.registration e.handler e.function e.access e.binding
    (shared e.handler.name e.binding.name))

theorem candidate?_pruned (m : Model) (shared : String → String → List String) (e : Exposure) :
    e.pruned.candidate? m.pruned shared = e.candidate? m shared := by
  simp only [candidate?, finding, Model.locate_pruned]
  rfl

end Exposure

/-- The findings are made of the exposures, and of who shares their bindings. -/
theorem findings_eq_exposures (m : Model) (isRouter : String → Bool) :
    findings m isRouter
      = (exposures m isRouter).filterMap (Exposure.candidate? m (sharersOf m isRouter)) := by
  simp only [findings, exposures, List.filterMap_flatMap]
  refine List.flatMap_congr fun x _ => List.flatMap_congr fun name _ => ?_
  cases m.function? name with
  | none => rfl
  | some f =>
      simp only [List.filterMap_filterMap]
      refine List.filterMap_congr fun a _ => ?_
      simp only [finding?, exposure?, Option.bind_eq_bind, Option.bind_assoc]
      refine Option.bind_congr fun b _ => ?_
      rw [apply_ite (Option.bind · _)]
      rfl

theorem exposure?_pruned (m : Model) (r : Registration) (h f : Function) (a : Access) :
    exposure? m.pruned r h.pruned f.pruned a = (exposure? m r h f a).map Exposure.pruned := by
  simp only [exposure?, Model.isReachable_pruned, Model.isGuarded_pruned, Option.bind_eq_bind,
    Option.map_bind]
  refine Option.bind_congr fun b _ => ?_
  rw [Function.comp_apply, apply_ite (Option.map Exposure.pruned)]
  rfl

/-- A dead access is no exposure. -/
theorem exposure?_eq_none {m : Model} {f : Function} (hf : m.function? f.name = some f)
    (r : Registration) (h : Function) {a : Access} (hdead : ¬f.graph.Reachable a.block) :
    exposure? m r h f a = none := by
  have hreachable : m.isReachable f.name a.block = false := by
    rw [← Bool.not_eq_true, Model.isReachable_iff, hf]
    simpa using hdead
  simp [exposure?, hreachable]

theorem exposures_pruned (m : Model) (isRouter : String → Bool) :
    exposures m.pruned isRouter = (exposures m isRouter).map Exposure.pruned := by
  simp only [exposures, Model.handlers_pruned, Model.reachableFunctions_pruned, List.flatMap_map,
    List.map_flatMap]
  refine List.flatMap_congr fun x _ => List.flatMap_congr fun name _ => ?_
  rw [Model.function?_pruned]
  cases hf : m.function? name with
  | none => rfl
  | some f =>
      obtain rfl := Model.name_of_function? hf
      simp only [Option.map_some, List.map_filterMap, Function.pruned, List.filterMap_filter]
      refine List.filterMap_congr fun a _ => ?_
      split_ifs with hlive
      · exact exposure?_pruned m x.1 x.2 f a
      · rw [exposure?_eq_none hf x.1 x.2 (by simpa using hlive)]
        rfl

/-- The findings, told from the exposures of the unit without dead accesses. -/
theorem findings_eq_pruned (m : Model) (isRouter : String → Bool) :
    findings m isRouter = (exposures m.pruned isRouter).filterMap
      (Exposure.candidate? m.pruned (sharersOf m isRouter)) := by
  rw [findings_eq_exposures, exposures_pruned, List.filterMap_map]
  refine List.filterMap_congr fun e _ => ?_
  exact (e.candidate?_pruned m _).symm

/-! ### Who shares a binding -/

instance (m : Model) (entry binding : String) : Decidable (Uses m entry binding) :=
  inferInstanceAs (Decidable (∃ f ∈ m.functions, _ ∧ _))

theorem uses_iff (m : Model) (entry binding : String) :
    Uses m entry binding ↔ ∃ site ∈ m.accessesOf binding, m.Runs entry site.1.name := by
  constructor
  · rintro ⟨f, hf, ⟨a, ha, hbinding⟩, hruns⟩
    exact ⟨(f, a), (m.mem_accessesOf_iff binding f a).mpr ⟨hf, ha, hbinding⟩, hruns⟩
  · rintro ⟨⟨f, a⟩, hsite, hruns⟩
    obtain ⟨hf, ha, hbinding⟩ := (m.mem_accessesOf_iff binding f a).mp hsite
    exact ⟨f, hf, ⟨a, ha, hbinding⟩, hruns⟩

theorem mem_sharersOf_iff (m : Model) (isRouter : String → Bool) (self binding text : String) :
    text ∈ sharersOf m isRouter self binding ↔
      (∃ name ∈ (m.handlers isRouter).map (·.2.name), name ≠ self ∧ Uses m name binding
        ∧ s!"handler '{name}'" = text)
      ∨ ∃ t ∈ m.tasks, (¬∃ c ∈ t.captures, c.binding = binding ∧ c.mode = .byValue)
        ∧ Uses m t.entry binding ∧ s!"task '{t.name}'" = text := by
  simp only [sharersOf, mem_sharers_iff, Model.mem_sharingTasks_iff,
    Model.mem_reachableFunctions_iff, Model.Shares, uses_iff]
  constructor
  · rintro ⟨site, hsite, ⟨h, hh, hne, hruns, htext⟩ | ⟨t, ⟨ht, hruns, hcopy⟩, htext⟩⟩
    · obtain ⟨x, hx, rfl⟩ := List.mem_map.mp hh
      exact .inl ⟨x.2.name, List.mem_map.mpr ⟨x, hx, rfl⟩, hne, ⟨site, hsite, hruns⟩, htext⟩
    · exact .inr ⟨t, ht, hcopy, ⟨site, hsite, hruns⟩, htext⟩
  · rintro (⟨name, hname, hne, ⟨site, hsite, hruns⟩, htext⟩ |
      ⟨t, ht, hcopy, ⟨site, hsite, hruns⟩, htext⟩)
    · obtain ⟨x, hx, rfl⟩ := List.mem_map.mp hname
      exact ⟨site, hsite, .inl ⟨x.2, List.mem_map_of_mem hx, hne, hruns, htext⟩⟩
    · exact ⟨site, hsite, .inr ⟨t, ⟨ht, hruns, hcopy⟩, htext⟩⟩

/-- Whoever shares a binding is named in another unit with the same handlers and tasks too, if those
    of them that use the binding use it there. -/
theorem sharersOf_sublist {m m' : Model} {isRouter : String → Bool} {binding : String}
    (hnames : (m.handlers isRouter).map (·.2.name) = (m'.handlers isRouter).map (·.2.name))
    (htasks : m.tasks = m'.tasks)
    (hhandler : ∀ name ∈ (m.handlers isRouter).map (·.2.name),
      Uses m name binding → Uses m' name binding)
    (htask : ∀ t ∈ m.tasks, (¬∃ c ∈ t.captures, c.binding = binding ∧ c.mode = .byValue) →
      Uses m t.entry binding → Uses m' t.entry binding) (self : String) :
    (sharersOf m isRouter self binding).Sublist (sharersOf m' isRouter self binding) := by
  refine Text.sortedSet_sublist fun text htext => ?_
  change text ∈ sharersOf m isRouter self binding at htext
  change text ∈ sharersOf m' isRouter self binding
  rw [mem_sharersOf_iff] at htext ⊢
  rcases htext with ⟨name, hname, hne, huses, htext⟩ | ⟨t, ht, hcopy, huses, htext⟩
  · exact .inl ⟨name, hnames ▸ hname, hne, hhandler name hname huses, htext⟩
  · exact .inr ⟨t, htasks ▸ ht, hcopy, htask t ht hcopy huses, htext⟩

/-! ### One dead access less -/

/-- The candidate tells the same as another one, with some of its sharers. -/
structure Narrows (c c' : Candidate) : Prop where
  rule : c.rule = c'.rule
  location : c.location = c'.location
  waivers : c.waivers = c'.waivers
  handler : c.extras.lookup "handler" = c'.extras.lookup "handler"
  binding : c.extras.lookup "binding" = c'.extras.lookup "binding"
  sharers : ∃ names names' : List String, c.extras.lookup "sharers" = some (.texts names)
    ∧ c'.extras.lookup "sharers" = some (.texts names') ∧ names ≠ [] ∧ names.Sublist names'

/-- Whether a candidate is about a binding. -/
def isAbout (binding : String) (c : Candidate) : Bool :=
  match c.extras.lookup "binding" with
  | some (.text name) => name == binding
  | _ => false

theorem isAbout_finding (binding : String) (m : Model) (r : Registration) (h f : Function)
    (a : Access) (b : Binding) (shared : List String) :
    isAbout binding (finding m r h f a b shared) = (b.name == binding) := rfl

/-- The handlers and the tasks that share a binding when they run a function use it in the other
    unit too. -/
structure UsedStill (m m' : Model) (f : Function) (binding : String) : Prop where
  handlers : ∀ r ∈ m.registrations, m.Runs r.handler f.name → Uses m' r.handler binding
  tasks : ∀ t ∈ m.tasks, m.Shares t f.name binding → Uses m' t.entry binding

theorem finding_narrows (m : Model) (r : Registration) (h f : Function) (a : Access) (b : Binding)
    {names names' : List String} (hne : names ≠ []) (hsublist : names.Sublist names') :
    Narrows (finding m r h f a b names) (finding m r h f a b names') := by
  -- Unfolded, so that the fields are compared one by one and the messages are not.
  simp only [finding, RuleInfo.candidate]
  exact {
    rule := rfl
    location := rfl
    waivers := rfl
    handler := rfl
    binding := rfl
    sharers := ⟨names, names', rfl, rfl, hne, hsublist⟩ }

theorem Exposure.narrows {m : Model} {shared shared' : String → String → List String}
    {e : Exposure} (h : (shared e.handler.name e.binding.name).Sublist
      (shared' e.handler.name e.binding.name)) {c : Candidate}
    (hc : e.candidate? m shared = some c) :
    ∃ c', e.candidate? m shared' = some c' ∧ Narrows c c' := by
  rw [candidate?] at hc
  split_ifs at hc with hempty
  rw [List.isEmpty_iff] at hempty
  have hempty' : shared' e.handler.name e.binding.name ≠ [] := fun hnil =>
    hempty (List.sublist_nil.mp (hnil ▸ h))
  rw [candidate?, if_neg (by simpa using hempty')]
  exact ⟨_, rfl, Option.some.inj hc ▸ finding_narrows m _ _ _ _ _ hempty h⟩

/-- A candidate is about the binding of its exposure. -/
theorem Exposure.filter_candidate? (m : Model) {shared shared' : String → String → List String}
    {e : Exposure} {binding : String}
    (h : e.binding.name ≠ binding → shared e.handler.name e.binding.name
      = shared' e.handler.name e.binding.name) :
    (e.candidate? m shared).filter (!isAbout binding ·)
      = (e.candidate? m shared').filter (!isAbout binding ·) := by
  by_cases hname : e.binding.name = binding
  · have hnone : ∀ shared, (e.candidate? m shared).filter (!isAbout binding ·) = none := by
      intro shared
      unfold candidate?
      split_ifs
      · rfl
      · simp [isAbout_finding, hname]
    rw [hnone, hnone]
  · simp only [candidate?, h hname]

section Drop

variable {m : Model} {k i : Nat} {f : Function} {a : Access} (hf : m.functions[k]? = some f)
  (ha : f.accesses[i]? = some a) (hdead : ¬f.graph.Reachable a.block)

include hf ha hdead

theorem runs_dropAccess (entry name : String) :
    (m.dropAccess k i).Runs entry name ↔ m.Runs entry name := by
  rw [← Model.runs_pruned, Model.pruned_dropAccess hf ha hdead, Model.runs_pruned]

theorem handlerNames_dropAccess (isRouter : String → Bool) :
    ((m.dropAccess k i).handlers isRouter).map (·.2.name)
      = (m.handlers isRouter).map (·.2.name) := by
  have hpruned : ∀ m : Model, (m.pruned.handlers isRouter).map (·.2.name)
      = (m.handlers isRouter).map (·.2.name) := by
    intro m
    rw [Model.handlers_pruned, List.map_map]
    rfl
  rw [← hpruned, Model.pruned_dropAccess hf ha hdead, hpruned]

theorem uses_of_dropAccess {entry binding : String}
    (huses : Uses (m.dropAccess k i) entry binding) : Uses m entry binding := by
  obtain ⟨g, hg, ⟨x, hx, hbinding⟩, hruns⟩ := huses
  rw [runs_dropAccess hf ha hdead] at hruns
  obtain ⟨j, hj⟩ := List.mem_iff_getElem?.mp hg
  rw [Model.dropAccess, List.getElem?_modify, Option.map_eq_map, Option.map_eq_some_iff] at hj
  obtain ⟨g', hg', rfl⟩ := hj
  split_ifs at hx hruns with hkj
  · exact ⟨g', List.mem_of_getElem? hg', ⟨x, List.mem_of_mem_eraseIdx hx, hbinding⟩, hruns⟩
  · exact ⟨g', List.mem_of_getElem? hg', ⟨x, hx, hbinding⟩, hruns⟩

/-- Without the access only those who run its function can be found not to use its binding. -/
theorem uses_dropAccess_or {entry binding : String} (huses : Uses m entry binding) :
    Uses (m.dropAccess k i) entry binding ∨ binding = a.binding ∧ m.Runs entry f.name := by
  obtain ⟨g, hg, ⟨x, hx, hbinding⟩, hruns⟩ := huses
  obtain ⟨j, hj⟩ := List.mem_iff_getElem?.mp hg
  have hj' : (m.dropAccess k i).functions[j]? = some (if k = j then g.dropAccess i else g) := by
    rw [Model.dropAccess, List.getElem?_modify, hj]
    rfl
  by_cases hkj : k = j
  · subst hkj
    obtain rfl : f = g := Option.some.inj (hf.symm.trans hj)
    obtain ⟨l, hl⟩ := List.mem_iff_getElem?.mp hx
    by_cases hli : l = i
    · subst hli
      obtain rfl : a = x := Option.some.inj (ha.symm.trans hl)
      exact .inr ⟨hbinding.symm, hruns⟩
    · rw [if_pos rfl] at hj'
      refine .inl ⟨_, List.mem_of_getElem? hj', ⟨x, ?_, hbinding⟩, ?_⟩
      · exact List.mem_eraseIdx_iff_getElem?.mpr ⟨l, hli, hl⟩
      · exact (runs_dropAccess hf ha hdead _ _).mpr hruns
  · rw [if_neg hkj] at hj'
    exact .inl ⟨g, List.mem_of_getElem? hj', ⟨x, hx, hbinding⟩,
      (runs_dropAccess hf ha hdead _ _).mpr hruns⟩

theorem sharersOf_dropAccess_sublist (isRouter : String → Bool) (self binding : String) :
    (sharersOf (m.dropAccess k i) isRouter self binding).Sublist
      (sharersOf m isRouter self binding) :=
  sharersOf_sublist (handlerNames_dropAccess hf ha hdead isRouter) rfl
    (fun _ _ => uses_of_dropAccess hf ha hdead)
    (fun _ _ _ => uses_of_dropAccess hf ha hdead) self

/-- Nobody stops sharing another binding, nor the same one if it is used by other accesses. -/
theorem sharersOf_dropAccess {binding : String}
    (hstill : binding = a.binding → UsedStill m (m.dropAccess k i) f binding)
    (isRouter : String → Bool) (self : String) :
    sharersOf (m.dropAccess k i) isRouter self binding = sharersOf m isRouter self binding := by
  refine (sharersOf_dropAccess_sublist hf ha hdead isRouter self binding).antisymm ?_
  refine sharersOf_sublist (handlerNames_dropAccess hf ha hdead isRouter).symm rfl ?_ ?_ self
  · intro name hname huses
    rcases uses_dropAccess_or hf ha hdead huses with huses' | ⟨hbinding, hruns⟩
    · exact huses'
    · obtain ⟨x, hx, rfl⟩ := List.mem_map.mp hname
      obtain ⟨r, hr, _, hh⟩ := (m.mem_handlers_iff isRouter x.2).mp (List.mem_map_of_mem hx)
      have hhandler := Model.name_of_function? hh
      rw [hhandler] at hruns ⊢
      exact (hstill hbinding).handlers r hr hruns
  · intro t ht hcopy huses
    rcases uses_dropAccess_or hf ha hdead huses with huses' | ⟨hbinding, hruns⟩
    · exact huses'
    · exact (hstill hbinding).tasks t ht ⟨hruns, hcopy⟩

theorem findings_dropAccess_eq (isRouter : String → Bool) :
    findings (m.dropAccess k i) isRouter = (exposures m.pruned isRouter).filterMap
      (Exposure.candidate? m.pruned (sharersOf (m.dropAccess k i) isRouter)) := by
  rw [findings_eq_pruned, Model.pruned_dropAccess hf ha hdead]

theorem findings_dropAccess_of_usedStill (hstill : UsedStill m (m.dropAccess k i) f a.binding)
    (isRouter : String → Bool) :
    findings (m.dropAccess k i) isRouter = findings m isRouter := by
  have hsharers : sharersOf (m.dropAccess k i) isRouter = sharersOf m isRouter := by
    funext self binding
    exact sharersOf_dropAccess hf ha hdead (fun hbinding => hbinding ▸ hstill) isRouter self
  rw [findings_dropAccess_eq hf ha hdead, hsharers, findings_eq_pruned]

theorem findings_dropAccess_narrows (isRouter : String → Bool) :
    List.SublistForall₂ Narrows (findings (m.dropAccess k i) isRouter) (findings m isRouter) := by
  rw [findings_dropAccess_eq hf ha hdead, findings_eq_pruned]
  refine sublistForall₂_filterMap (fun e c hc => ?_) _
  exact Exposure.narrows (sharersOf_dropAccess_sublist hf ha hdead isRouter _ _) hc

theorem findings_dropAccess_filter (isRouter : String → Bool) :
    (findings (m.dropAccess k i) isRouter).filter (!isAbout a.binding ·)
      = (findings m isRouter).filter (!isAbout a.binding ·) := by
  rw [findings_dropAccess_eq hf ha hdead, findings_eq_pruned, List.filter_filterMap,
    List.filter_filterMap]
  refine List.filterMap_congr fun e _ => ?_
  refine Exposure.filter_candidate? _ fun hne => ?_
  exact sharersOf_dropAccess hf ha hdead (fun heq => absurd heq hne) isRouter _

end Drop

/-- Whether the rule fails depends on its settings only. -/
theorem evaluate_cases [CharacterNames] (s : RuleSettings) :
    (∃ e, ∀ m, rule.evaluate m s = .error e)
      ∨ ∃ isRouter, ∀ m, rule.evaluate m s = .ok (findings m isRouter) := by
  cases ht : s.threshold "handler_patterns" with
  | error e => exact .inl ⟨e, fun m => by simp [rule, ht, bind, Except.bind]⟩
  | ok t =>
      cases hpatterns : Threshold.patterns t with
      | error e => exact .inl ⟨e, fun m => by simp [rule, ht, hpatterns, bind, Except.bind]⟩
      | ok patterns =>
          refine .inr ⟨isRouter patterns, fun m => ?_⟩
          rw [evaluate_eq ht hpatterns, findings_eq]

end HandlerSafety

/-- **What a dead access does to the rules about races.** Where functions have different names, an
    access that control cannot reach makes no difference to the rule about unguarded accesses. The
    rule about handlers comes to the same without it if all handlers and tasks that run its function
    use its binding by other accesses too. In any case nothing is added when the access is left
    out, and whatever is about another binding stays as it is. -/
theorem evaluate_dropAccess [CharacterNames] {m : Model} {k i : Nat} {f : Function} {a : Access}
    (hfunctions : m.DistinctFunctions) (hf : m.functions[k]? = some f)
    (ha : f.accesses[i]? = some a) (hdead : ¬f.graph.Reachable a.block) (s : RuleSettings) :
    UnguardedAccess.rule.evaluate (m.dropAccess k i) s = UnguardedAccess.rule.evaluate m s
    ∧ (HandlerSafety.UsedStill m (m.dropAccess k i) f a.binding →
      HandlerSafety.rule.evaluate (m.dropAccess k i) s = HandlerSafety.rule.evaluate m s)
    ∧ ((∃ e, HandlerSafety.rule.evaluate (m.dropAccess k i) s = .error e
        ∧ HandlerSafety.rule.evaluate m s = .error e)
      ∨ ∃ left candidates, HandlerSafety.rule.evaluate (m.dropAccess k i) s = .ok left
        ∧ HandlerSafety.rule.evaluate m s = .ok candidates
        ∧ List.SublistForall₂ HandlerSafety.Narrows left candidates
        ∧ left.filter (!HandlerSafety.isAbout a.binding ·)
          = candidates.filter (!HandlerSafety.isAbout a.binding ·)) := by
  refine ⟨?_, fun hstill => ?_, ?_⟩
  · have hfunctions' : (m.dropAccess k i).DistinctFunctions := by
      rwa [← Model.distinctFunctions_pruned, Model.pruned_dropAccess hf ha hdead,
        Model.distinctFunctions_pruned]
    rw [← UnguardedAccess.evaluate_pruned hfunctions', Model.pruned_dropAccess hf ha hdead,
      UnguardedAccess.evaluate_pruned hfunctions]
  · obtain ⟨e, hfails⟩ | ⟨isRouter, hfinds⟩ := HandlerSafety.evaluate_cases s
    · rw [hfails, hfails]
    · rw [hfinds, hfinds, HandlerSafety.findings_dropAccess_of_usedStill hf ha hdead hstill]
  · obtain ⟨e, hfails⟩ | ⟨isRouter, hfinds⟩ := HandlerSafety.evaluate_cases s
    · exact .inl ⟨e, hfails _, hfails _⟩
    · exact .inr ⟨_, _, hfinds _, hfinds _,
        HandlerSafety.findings_dropAccess_narrows hf ha hdead isRouter,
        HandlerSafety.findings_dropAccess_filter hf ha hdead isRouter⟩

/-- A function that reads `x` in some blocks. Control does not come to block 1. -/
def readingIn (blocks : List Int) : Function where
  name := "look"
  graph := { blocks := #[{ number := 0, exit := some .returning }, { number := 1 }] }
  accesses := blocks.map fun block => { binding := "x", block }

/-- A unit with a handler that writes to `x`, and one that reads it in some blocks. -/
def readIn (blocks : List Int) : Model where
  unit := "u"
  bindings := [{ name := "x" }]
  functions := [HandlerSafety.storing, readingIn blocks]
  registrations := [{ call := "http.HandleFunc", handler := "store" },
    { call := "http.HandleFunc", handler := "look" }]

open scoped CharacterNames

/-- A dead read does not matter beside one that happens. If it is the only one, it is the reason for
    which the write is reported. -/
theorem evaluate_dropAccess_readIn :
    HandlerSafety.rule.evaluate ((readIn [0, 1]).dropAccess 1 1) HandlerSafety.info.defaults
      = HandlerSafety.rule.evaluate (readIn [0, 1]) HandlerSafety.info.defaults
    ∧ (HandlerSafety.rule.evaluate (readIn [1]) HandlerSafety.info.defaults).toOption.map
      List.length = some 1
    ∧ (HandlerSafety.rule.evaluate ((readIn [1]).dropAccess 1 0)
      HandlerSafety.info.defaults).toOption.map List.length = some 0 := by
  have hdead : ¬(readingIn [0, 1]).graph.Reachable 1 := by decide +kernel
  refine ⟨?_, by decide +kernel, by decide +kernel⟩
  refine (evaluate_dropAccess (m := readIn [0, 1]) (k := 1) (i := 1) (by decide) rfl rfl hdead
    _).2.1 ⟨?_, ?_⟩
  · show ∀ r ∈ (readIn [0, 1]).registrations, (readIn [0, 1]).Runs r.handler "look" →
      HandlerSafety.Uses ((readIn [0, 1]).dropAccess 1 1) r.handler "x"
    decide +kernel
  · intro t ht
    cases ht

end Hazard
