import Hazard.Proofs.FlowGraph.Dominance
import Hazard.Proofs.Rule.Sites

set_option autoImplicit false

/-! # Stores that follow a missed look-up

The rule about concurrent maps sorts the operations on a map by the function that makes them, and
looks in each function for a store that comes after a look-up of the same key has missed. This
module says without the sorting, the search of the call graph and the table of dominators what is
found: a store is reported when enough tasks can run its function, nothing there combines look-up
and update of the key, control can reach the store, and every path to it passes through the block
that some load of the key leads to on a miss (`evaluate_eq_racy`).

The candidate shows where the first such load is. A location whose numbers have too many digits
cannot be shown, and one load like that among those to be shown is enough for the rule to fail. -/

namespace Hazard

/-- The rows of the table of dominators are those of the blocks that control can reach in the
    function that a name stands for. -/
theorem Model.lookup_dominators_iff (m : Model) (name : String) (block : Int) (doms : List Int) :
    (m.dominators name).lookup block = some doms ↔ ∃ f, m.function? name = some f
      ∧ f.graph.Reachable block ∧ f.graph.dominators.of block = doms := by
  unfold dominators
  cases m.function? name with
  | none => simp
  | some f =>
      simp only [Option.some.injEq, exists_eq_left']
      have hkey : block ∈ f.graph.dominators.map Prod.fst ↔ f.graph.Reachable block := by
        rw [f.graph.dominators_keys, f.graph.mem_reachable_iff]
      by_cases hblock : f.graph.Reachable block
      · simp [f.graph.dominators.lookup_eq_some_of (hkey.mpr hblock), hblock]
      · simp [f.graph.dominators.lookup_eq_none_of (mt hkey.mp hblock), hblock]

namespace LoadThenStore

/-! ## What is to be reported -/

/-- The operation is a load of the key of the store, in the same function, and every path to the
    store passes through the block where control goes when the load misses. -/
structure MissedBefore (g : FlowGraph) (store load : MapOperation) : Prop where
  action : load.action = .load
  function : load.function = store.function
  key : load.key = store.key
  missed : ∃ n, load.missBlock = some n ∧ g.Dominates n store.block

/-- No operation of the function of the store combines look-up and update of its key. -/
def Separate (map : ConcurrentMap) (store : MapOperation) : Prop :=
  ∀ o ∈ map.operations, o.function = store.function → o.key = store.key →
    o.action ≠ .loadOrStore ∧ o.action ≠ .loadAndDelete

/-- The operation is a store that may undo one of another task: enough tasks can run its function,
    where nothing combines look-up and update of the key, and control comes to it, after some load
    of the key has missed. -/
structure Racy (m : Model) (minTasks : Int) (map : ConcurrentMap) (store : MapOperation) :
    Prop where
  action : store.action = .store
  enough : minTasks ≤ m.weightOf fun t => m.Runs t.entry store.function
  separate : Separate map store
  missed : ∃ f, m.function? store.function = some f ∧ f.graph.Reachable store.block
    ∧ ∃ load ∈ map.operations, MissedBefore f.graph store load

/-- A store on a map and the load that is shown with it. The place tells the store from others that
    look the same: it is the position of the map in the unit and that of the store among the
    operations on the map. -/
structure Update where
  place : Nat × Nat
  map : ConcurrentMap
  store : MapOperation
  load : MapOperation

/-- The store is the one at its place, and the load is the first one in the order of the operations
    that comes before the store and misses. -/
structure Update.Fits (m : Model) (u : Update) : Prop where
  map : m.maps[u.place.1]? = some u.map
  store : u.map.operations[u.place.2]? = some u.store
  load : ∃ f, m.function? u.store.function = some f
    ∧ FirstIn (MissedBefore f.graph u.store) u.map.operations u.load

/-- Where the load is: at its own location, or, if it has none, somewhere in the unit. -/
def Update.shown (m : Model) (u : Update) : Location := u.load.location.getD (.ofFile m.unit)

/-- The candidate is about the store. It shows where the load is, and names the tasks that can run
    the function. -/
structure Tells (m : Model) (u : Update) (c : Candidate) : Prop where
  rule : c.rule = "RC.4"
  location : c.location = m.locate [u.store.location, u.map.location]
  waivers : c.waivers = u.store.waivers
  map : c.extras.lookup "map" = some (.text u.map.name)
  key : c.extras.lookup "key" = some (.text u.store.key)
  load : c.extras.lookup "load_location" = some (.text (u.shown m).text)
  tasks : ∃ names : List String, c.extras.lookup "tasks" = some (.texts names)
    ∧ (names.Pairwise fun a b => Text.codes a ≤ Text.codes b)
    ∧ names.Perm ((m.tasks.filter fun t => m.Runs t.entry u.store.function).map (·.name))

/-! ## The load before a store -/

theorem isCombined_iff (action : MapAction) :
    action.isCombined = true ↔ action = .loadOrStore ∨ action = .loadAndDelete := by
  cases action <;> simp [MapAction.isCombined]

/-- Where control reaches the store, the search finds the first load that misses before it. -/
theorem missedLoad?_eq_some_iff {g : FlowGraph} {store : MapOperation}
    (hblock : g.Reachable store.block) (ops : List MapOperation) (load : MapOperation) :
    missedLoad? (ops.filter (·.function == store.function)) store.key
        (g.dominators.of store.block) = some load ↔
      FirstIn (MissedBefore g store) ops load := by
  -- The first one among the operations of the function is the first one of all that is of it.
  rw [missedLoad?, List.find?_filter]
  refine find?_eq_some_iff_firstIn (fun o => ?_) ops load
  simp only [Bool.and_eq_true, beq_iff_eq, Option.any_eq_true, List.contains_iff_mem,
    g.mem_of_dominators_iff hblock, and_assoc, decide_eq_true_eq]
  constructor
  · rintro ⟨hfunction, haction, hkey, hmissed⟩
    exact ⟨haction, hfunction, hkey, hmissed⟩
  · rintro ⟨haction, hfunction, hkey, hmissed⟩
    exact ⟨hfunction, haction, hkey, hmissed⟩

theorem any_isCombined_iff (map : ConcurrentMap) (store : MapOperation) :
    (map.operations.filter (·.function == store.function)).any
        (fun o => o.action.isCombined && o.key == store.key) = false ↔ Separate map store := by
  simp only [List.any_eq_false, List.mem_filter, beq_iff_eq, Bool.and_eq_true, isCombined_iff,
    Separate]
  constructor
  · intro h o ho hfunction hkey
    exact not_or.mp fun hcombined => h o ⟨ho, hfunction⟩ ⟨hcombined, hkey⟩
  · rintro h o ⟨ho, hfunction⟩ ⟨hcombined, hkey⟩
    exact not_or.mpr (h o ho hfunction hkey) hcombined

/-- A store has a load before it when control reaches it and the first load that misses before it is
    that one. -/
theorem loadBefore?_eq_some_iff (m : Model) (map : ConcurrentMap) (store load : MapOperation) :
    loadBefore? (m.dominators store.function)
        (map.operations.filter (·.function == store.function)) store = some load ↔
      store.action = .store ∧ Separate map store ∧ ∃ f, m.function? store.function = some f
        ∧ f.graph.Reachable store.block
        ∧ FirstIn (MissedBefore f.graph store) map.operations load := by
  rw [← any_isCombined_iff]
  unfold loadBefore?
  split_ifs with hskip
  · refine iff_of_false (by simp) fun h => ?_
    simp [h.1, h.2.1] at hskip
  · simp only [Bool.or_eq_true, bne_iff_ne, not_or, not_not, Bool.not_eq_true] at hskip
    simp only [hskip, true_and, Option.bind_eq_bind, Option.bind_eq_some_iff,
      m.lookup_dominators_iff]
    constructor
    · rintro ⟨_, ⟨f, hf, hblock, rfl⟩, hload⟩
      exact ⟨f, hf, hblock, (missedLoad?_eq_some_iff hblock _ load).mp hload⟩
    · rintro ⟨f, hf, hblock, hload⟩
      exact ⟨_, ⟨f, hf, hblock, rfl⟩, (missedLoad?_eq_some_iff hblock _ load).mpr hload⟩

/-- The load that is shown for an operation on a map, if it is a store to report. -/
def shownLoad? (m : Model) (minTasks : Number) (map : ConcurrentMap) (store : MapOperation) :
    Option MapOperation :=
  if (Number.int (Task.totalWeight (m.tasksReaching store.function))).lt minTasks then none
  else
    loadBefore? (m.dominators store.function)
      (map.operations.filter (·.function == store.function)) store

theorem shownLoad?_eq_some_iff (m : Model) (minTasks : Int) (map : ConcurrentMap)
    (store load : MapOperation) :
    shownLoad? m (.int minTasks) map store = some load ↔
      minTasks ≤ m.weightOf (fun t => m.Runs t.entry store.function)
        ∧ store.action = .store ∧ Separate map store ∧ ∃ f, m.function? store.function = some f
        ∧ f.graph.Reachable store.block
        ∧ FirstIn (MissedBefore f.graph store) map.operations load := by
  have hweight : Task.totalWeight (m.tasksReaching store.function)
      = m.weightOf fun t => m.Runs t.entry store.function :=
    Task.totalWeight_eq_weightOf (by rw [m.tasksReaching_eq])
  rw [shownLoad?, hweight, Number.lt, ← loadBefore?_eq_some_iff]
  by_cases hfew : (m.weightOf fun t => m.Runs t.entry store.function : Int) < minTasks
  · simp [hfew, not_le.mpr hfew]
  · simp [hfew, not_lt.mp hfew]

/-- A load is shown for the stores that race. -/
theorem exists_shownLoad?_iff (m : Model) (minTasks : Int) (map : ConcurrentMap)
    (store : MapOperation) :
    (∃ load, shownLoad? m (.int minTasks) map store = some load) ↔
      Racy m minTasks map store := by
  simp only [shownLoad?_eq_some_iff]
  constructor
  · rintro ⟨load, henough, haction, hseparate, f, hf, hblock, hload⟩
    exact ⟨haction, henough, hseparate, f, hf, hblock, (exists_firstIn_iff _ _).mp ⟨load, hload⟩⟩
  · rintro ⟨haction, henough, hseparate, f, hf, hblock, hmissed⟩
    obtain ⟨load, hload⟩ := (exists_firstIn_iff _ _).mpr hmissed
    exact ⟨load, henough, haction, hseparate, f, hf, hblock, hload⟩

/-! ## Stores by place -/

/-- The updates that one function makes on the map at a position. -/
def updatesIn (m : Model) (minTasks : Number) (map : ConcurrentMap) (i : Nat) (function : String) :
    List Update :=
  let load? (store : MapOperation) : Option (MapOperation × MapOperation) :=
    if store.function == function then (shownLoad? m minTasks map store).map fun l => (store, l)
    else none
  (resultsAt load? map.operations).map fun (j, store, load) => ⟨(i, j), map, store, load⟩

/-- The updates to report, in the order in which the rule comes to them. -/
def updates (m : Model) (minTasks : Number) : List Update :=
  m.maps.zipIdx.flatMap fun (map, i) =>
    (map.operations.map (·.function)).eraseDups.flatMap (updatesIn m minTasks map i)

theorem mem_updatesIn_iff (m : Model) (minTasks : Number) (map : ConcurrentMap) (i : Nat)
    (function : String) (u : Update) :
    u ∈ updatesIn m minTasks map i function ↔
      u.place.1 = i ∧ u.map = map ∧ u.store.function = function
        ∧ map.operations[u.place.2]? = some u.store
        ∧ shownLoad? m minTasks map u.store = some u.load := by
  simp only [updatesIn, List.mem_map, Prod.exists, mem_resultsAt_iff]
  constructor
  · rintro ⟨j, store, load, ⟨o, ho, hload⟩, rfl⟩
    split_ifs at hload with hfunction
    obtain ⟨_, hshown, hpair⟩ := Option.map_eq_some_iff.mp hload
    obtain ⟨rfl, rfl⟩ := Prod.mk.inj hpair
    exact ⟨rfl, rfl, by simpa using hfunction, ho, hshown⟩
  · obtain ⟨⟨_, j⟩, _, store, load⟩ := u
    rintro ⟨rfl, rfl, rfl, ho, hshown⟩
    exact ⟨j, store, load, ⟨store, ho, by simp [hshown]⟩, rfl⟩

theorem mem_updates_iff (m : Model) (minTasks : Number) (u : Update) :
    u ∈ updates m minTasks ↔ m.maps[u.place.1]? = some u.map
      ∧ u.map.operations[u.place.2]? = some u.store
      ∧ shownLoad? m minTasks u.map u.store = some u.load := by
  simp only [updates, List.mem_flatMap, Prod.exists, List.mem_zipIdx_iff_getElem?,
    mem_updatesIn_iff]
  constructor
  · rintro ⟨map, i, hmap, function, _, rfl, rfl, _, hstore, hload⟩
    exact ⟨hmap, hstore, hload⟩
  · rintro ⟨hmap, hstore, hload⟩
    refine ⟨u.map, u.place.1, hmap, u.store.function, ?_, rfl, rfl, rfl, hstore, hload⟩
    rw [List.mem_eraseDups]
    exact List.mem_map_of_mem (List.mem_of_getElem? hstore)

theorem updatesIn_nodup (m : Model) (minTasks : Number) (map : ConcurrentMap) (i : Nat)
    (function : String) : (updatesIn m minTasks map i function).Nodup := by
  refine List.Nodup.map ?_ (resultsAt_nodup _ map.operations).of_map
  rintro ⟨j, store, load⟩ ⟨j', store', load'⟩ hsame
  simpa using hsame

/-- An operation belongs to one function and one map, so that it is not come to twice. -/
theorem updates_nodup (m : Model) (minTasks : Number) : (updates m minTasks).Nodup := by
  refine nodup_flatMap_of_mark (·.2) (·.place.1) (List.nodup_zipIdx_map_snd m.maps) ?_ ?_
  · rintro ⟨map, i⟩ _ u hu
    obtain ⟨function, _, hu⟩ := List.mem_flatMap.mp hu
    exact ((mem_updatesIn_iff m minTasks map i function u).mp hu).1
  · rintro ⟨map, i⟩ _
    -- On one map it is the function that tells the groups of operations apart.
    refine nodup_flatMap_of_mark id (·.store.function) (by simpa using nodup_eraseDups _) ?_ ?_
    · intro function _ u hu
      exact ((mem_updatesIn_iff m minTasks map i function u).mp hu).2.2.1
    · intro function _
      exact updatesIn_nodup m minTasks map i function

theorem places_nodup (m : Model) (minTasks : Number) :
    ((updates m minTasks).map (·.place)).Nodup := by
  refine (updates_nodup m minTasks).map_on fun u hu v hv hplace => ?_
  -- The place tells the map and the store, and these tell the load.
  obtain ⟨hmap, hstore, hload⟩ := (mem_updates_iff m minTasks u).mp hu
  obtain ⟨hmap', hstore', hload'⟩ := (mem_updates_iff m minTasks v).mp hv
  obtain ⟨place, map, store, load⟩ := u
  obtain ⟨place', map', store', load'⟩ := v
  obtain rfl : place = place' := hplace
  obtain rfl : map = map' := Option.some.inj (hmap.symm.trans hmap')
  obtain rfl : store = store' := Option.some.inj (hstore.symm.trans hstore')
  obtain rfl : load = load' := Option.some.inj (hload.symm.trans hload')
  rfl

/-! ## Candidates -/

/-- The candidate for an update, unless it cannot be written. -/
def Update.finding (m : Model) (u : Update) : Except Fault Candidate :=
  LoadThenStore.finding m u.map u.store.function u.store u.load

theorem map_reportsIn (m : Model) (minTasks : Number) (map : ConcurrentMap) (i : Nat)
    (function : String) :
    (reportsIn m minTasks map function).map (·.2)
      = (updatesIn m minTasks map i function).map (·.finding m) := by
  have hupdates : (updatesIn m minTasks map i function).map (·.finding m)
      = map.operations.filterMap fun store =>
        if store.function == function then
          (shownLoad? m minTasks map store).map fun load => finding m map function store load
        else none := by
    have hfinding : (Update.finding m ∘ fun x : Nat × MapOperation × MapOperation =>
        (⟨(i, x.1), map, x.2.1, x.2.2⟩ : Update))
        = (fun p => finding m map p.1.function p.1 p.2) ∘ (·.2) := rfl
    rw [updatesIn, List.map_map, hfinding, ← List.map_map, map_snd_resultsAt, List.map_filterMap]
    refine List.filterMap_congr fun store _ => ?_
    split_ifs with hfunction
    · rw [beq_iff_eq] at hfunction
      simp [hfunction, Function.comp_def]
    · rfl
  rw [hupdates]
  unfold reportsIn
  split_ifs with hfew
  -- With too few tasks there is no load to show for any operation of the function.
  · rw [List.map_nil, eq_comm, List.filterMap_eq_nil_iff]
    intro store _
    split_ifs with hfunction
    · rw [beq_iff_eq] at hfunction
      simp [shownLoad?, hfunction, hfew]
    · rfl
  · simp only [List.map_filterMap, List.filterMap_filter]
    refine List.filterMap_congr fun store _ => ?_
    split_ifs with hfunction
    · rw [beq_iff_eq] at hfunction
      simp [shownLoad?, hfunction, hfew, Function.comp_def]
    · rfl

theorem evaluate_eq_updates {m : Model} {s : RuleSettings} {t : Value} {n : Number}
    (ht : s.threshold "min_tasks" = .ok t) (hn : t.number? = some n) :
    rule.evaluate m s = (updates m n).mapM (·.finding m) := by
  have hall : (reports m n).map (·.2) = (updates m n).map (·.finding m) := by
    unfold reports updates
    -- The maps are taken with their positions, which the reports do not tell.
    conv_lhs => rw [← List.zipIdx_map_fst 0 m.maps, List.flatMap_map]
    rw [List.map_flatMap, List.map_flatMap]
    refine List.flatMap_congr fun x _ => ?_
    rw [List.map_flatMap, List.map_flatMap]
    exact List.flatMap_congr fun function _ => map_reportsIn m n x.1 x.2 function
  calc rule.evaluate m s = (reports m n).mapM (·.2) := evaluate_eq ht hn
    _ = ((reports m n).map (·.2)).mapM id := by rw [List.mapM_map]; rfl
    _ = ((updates m n).map (·.finding m)).mapM id := by rw [hall]
    _ = (updates m n).mapM (·.finding m) := List.mapM_map

theorem locate_load (m : Model) (u : Update) : m.locate [u.load.location] = u.shown m := by
  unfold Update.shown
  cases u.load.location <;> rfl

theorem Update.finding_tells {m : Model} {u : Update} (h : (u.shown m).Writable) :
    ∃ c, u.finding m = .ok c ∧ Tells m u c := by
  unfold Update.finding LoadThenStore.finding
  rw [locate_load, h.mapError_written]
  refine ⟨_, rfl, rfl, rfl, rfl, rfl, rfl, rfl, _, rfl, Text.sorted_pairwise _, ?_⟩
  rw [← m.tasksReaching_eq]
  exact List.mergeSort_perm _ _

theorem Update.finding_eq_error {m : Model} {u : Update} (h : ¬(u.shown m).Writable) :
    u.finding m = .error (.ofNumeral .unwritable) := by
  unfold Update.finding LoadThenStore.finding
  rw [locate_load, Location.mapError_written_of_not h]
  rfl

theorem Update.finding_failsOnly (m : Model) (u : Update) :
    FailsOnly (· = .ofNumeral .unwritable) (u.finding m) := by
  intro e he
  by_cases h : (u.shown m).Writable
  · obtain ⟨c, hc, _⟩ := finding_tells h
    rw [hc] at he
    cases he
  · rw [finding_eq_error h] at he
    exact (Except.error.inj he).symm

/-- **The stores that race are reported, and nothing else.** There is one update for each store that
    races, with the first load that misses before it. Where all these loads can be shown, the rule
    returns one candidate for each update, and otherwise it fails. -/
theorem evaluate_eq_racy {m : Model} {s : RuleSettings} {minTasks : Int}
    (hmin : s.threshold "min_tasks" = .ok (.int minTasks)) :
    ∃ found : List Update,
      (found.map (·.place)).Nodup
      ∧ (∀ i j, (i, j) ∈ found.map (·.place) ↔ ∃ map store, m.maps[i]? = some map
        ∧ map.operations[j]? = some store ∧ Racy m minTasks map store)
      ∧ (∀ u ∈ found, u.Fits m)
      ∧ ((∀ u ∈ found, (u.shown m).Writable) →
        ∃ candidates, rule.evaluate m s = .ok candidates
          ∧ List.Forall₂ (Tells m) found candidates)
      ∧ ((∃ u ∈ found, ¬(u.shown m).Writable) →
        rule.evaluate m s = .error (.ofNumeral .unwritable)) := by
  rw [evaluate_eq_updates hmin rfl]
  refine ⟨updates m (.int minTasks), places_nodup m _, fun i j => ?_, fun u hu => ?_, ?_, ?_⟩
  · simp only [List.mem_map, mem_updates_iff, ← exists_shownLoad?_iff]
    constructor
    · rintro ⟨u, ⟨hmap, hstore, hload⟩, hplace⟩
      rw [hplace] at hmap hstore
      exact ⟨u.map, u.store, hmap, hstore, u.load, hload⟩
    · rintro ⟨map, store, hmap, hstore, load, hload⟩
      exact ⟨⟨(i, j), map, store, load⟩, ⟨hmap, hstore, hload⟩, rfl⟩
  · obtain ⟨hmap, hstore, hload⟩ := (mem_updates_iff m _ u).mp hu
    obtain ⟨_, _, _, f, hf, _, hfirst⟩ := (shownLoad?_eq_some_iff m minTasks _ _ _).mp hload
    exact ⟨hmap, hstore, f, hf, hfirst⟩
  · intro hall
    exact exists_mapM_forall₂ fun u hu => Update.finding_tells (hall u hu)
  · rintro ⟨u, hu, hunwritable⟩
    exact mapM_eq_error (fun v _ => v.finding_failsOnly m) hu (Update.finding_eq_error hunwritable)

/-- A flow graph with a block that one of two ways passes through. -/
def detour : FlowGraph where
  blocks := #[{ number := 0, successors := [1, 2] }, { number := 1, successors := [2] },
    { number := 2, exit := some .ending }]

/-- A look-up on the given line that leads to the detour when it misses. -/
def lookUp (line : Int) : MapOperation :=
  { action := .load, key := "k", function := "f", missBlock := some 1
    location := some ⟨"u", line, 0⟩ }

/-- A store in a block. -/
def storeIn (block : Int) : MapOperation :=
  { action := .store, key := "k", function := "f", block }

/-- A map with a look-up, a store on the detour and a store after it. -/
def checkedMap (line : Int) : ConcurrentMap :=
  { name := "m", operations := [lookUp line, storeIn 1, storeIn 2] }

/-- A unit in which a replicated task uses the map. -/
def checkedUnit (line : Int) : Model where
  unit := "u"
  functions := [{ name := "f", graph := detour }]
  tasks := [{ name := "a", entry := "f", replicated := true }]
  maps := [checkedMap line]

theorem racy_detour (line : Int) : Racy (checkedUnit line) 2 (checkedMap line) (storeIn 1) where
  action := rfl
  enough := by
    have hruns : (checkedUnit line).Runs "f" "f" := ⟨["f"], .start rfl⟩
    have hall : ∀ t ∈ (checkedUnit line).tasks,
        decide ((checkedUnit line).Runs t.entry "f") = true := by
      intro t ht
      obtain rfl := List.mem_singleton.mp ht
      exact decide_eq_true hruns
    show (2 : Int) ≤ (checkedUnit line).weightOf fun t => (checkedUnit line).Runs t.entry "f"
    rw [Model.weightOf, List.filter_eq_self.mpr hall]
    exact le_refl (2 : Int)
  separate := by
    intro o ho _ _
    simp only [checkedMap, List.mem_cons, List.not_mem_nil, or_false] at ho
    rcases ho with rfl | rfl | rfl <;> simp [lookUp, storeIn]
  missed := by
    have hself : detour.Dominates 1 1 := by
      intro path hpath
      cases hpath with
      | step => simp
    exact ⟨_, rfl, by decide +kernel, lookUp line, List.mem_cons_self, rfl, rfl, rfl, 1, rfl, hself⟩

/-- The store after the detour is reached by a path that does not take it. -/
theorem not_racy_join (line : Int) : ¬Racy (checkedUnit line) 2 (checkedMap line) (storeIn 2) := by
  rintro ⟨_, _, _, _, hf, _, load, hload, haction, _, _, n, hn, hdominates⟩
  obtain rfl := Option.some.inj hf
  have hpath : detour.Path 0 2 [0, 2] := (FlowGraph.Path.start rfl).step (by decide)
  have hmem := hdominates [0, 2] hpath
  simp only [checkedMap, List.mem_cons, List.not_mem_nil, or_false] at hload
  rcases hload with rfl | rfl | rfl
  · obtain rfl := Option.some.inj hn
    simp at hmem
  · cases haction
  · cases haction

theorem racy_checkedUnit_iff (line : Int) (i j : Nat) :
    (∃ map store, (checkedUnit line).maps[i]? = some map ∧ map.operations[j]? = some store
      ∧ Racy (checkedUnit line) 2 map store) ↔ (i, j) = (0, 1) := by
  constructor
  · rintro ⟨map, store, hmap, hstore, hracy⟩
    obtain ⟨rfl, rfl⟩ : i = 0 ∧ checkedMap line = map := by
      simpa [checkedUnit, List.getElem?_singleton] using hmap
    match j with
    | 0 =>
        obtain rfl := Option.some.inj hstore
        cases hracy.action
    | 1 => rfl
    | 2 =>
        obtain rfl := Option.some.inj hstore
        exact absurd hracy (not_racy_join line)
    | j + 3 => cases hstore
  · intro hplace
    obtain ⟨rfl, rfl⟩ := Prod.mk.inj hplace
    exact ⟨_, _, rfl, rfl, racy_detour line⟩

/-- The one load that can be shown is the look-up. -/
theorem shown_of_fits {line : Int} {u : Update} (hplace : u.place = (0, 1))
    (h : u.Fits (checkedUnit line)) : u.shown (checkedUnit line) = ⟨"u", line, 0⟩ := by
  obtain ⟨⟨_, _⟩, map, store, load⟩ := u
  obtain ⟨rfl, rfl⟩ := Prod.mk.inj hplace
  obtain ⟨hmap, _, _, _, _, _, hsplit, hmissed, _⟩ := h
  obtain rfl := Option.some.inj hmap
  have hload : load ∈ (checkedMap line).operations := by
    rw [hsplit]
    simp
  simp only [checkedMap, List.mem_cons, List.not_mem_nil, or_false] at hload
  rcases hload with rfl | rfl | rfl
  · rfl
  · cases hmissed.action
  · cases hmissed.action

/-- The store on the detour is reported, with the line of the look-up; or the rule fails, if the
    line cannot be written. -/
theorem evaluate_eq_racy_checkedUnit :
    (∃ c, rule.evaluate (checkedUnit 7) info.defaults = .ok [c]
      ∧ c.extras.lookup "load_location" = some (.text "u:7"))
    ∧ rule.evaluate (checkedUnit (Nat.pow 10 4300)) info.defaults
      = .error (.ofNumeral .unwritable) := by
  have hfound : ∀ line, ∃ u : Update, u.shown (checkedUnit line) = ⟨"u", line, 0⟩
      ∧ ((u.shown (checkedUnit line)).Writable → ∃ c,
        rule.evaluate (checkedUnit line) info.defaults = .ok [c] ∧ Tells (checkedUnit line) u c)
      ∧ (¬(u.shown (checkedUnit line)).Writable →
        rule.evaluate (checkedUnit line) info.defaults = .error (.ofNumeral .unwritable)) := by
    intro line
    obtain ⟨found, hnodup, hplaces, hfits, hok, herror⟩ :=
      @evaluate_eq_racy (checkedUnit line) info.defaults 2 rfl
    -- Places are told once, so the one place of a store that races makes up the whole list.
    have hone : found.map (·.place) = [(0, 1)] := by
      refine List.perm_singleton.mp ((List.perm_ext_iff_of_nodup hnodup (by simp)).mpr ?_)
      rintro ⟨i, j⟩
      rw [hplaces, racy_checkedUnit_iff, List.mem_singleton]
    obtain ⟨u, rfl, hu⟩ := List.map_eq_singleton_iff.mp hone
    refine ⟨u, shown_of_fits hu (hfits u List.mem_cons_self), fun hwritable => ?_, fun hfails => ?_⟩
    · obtain ⟨candidates, hrun, htells⟩ := hok (by simpa using hwritable)
      cases htells with
      | @cons _ c _ _ htell hrest =>
          cases hrest with
          | nil => exact ⟨c, hrun, htell⟩
    · exact herror ⟨u, List.mem_cons_self, hfails⟩
  refine ⟨?_, ?_⟩
  · obtain ⟨u, hshown, hok, _⟩ := hfound 7
    obtain ⟨c, hrun, htell⟩ := hok (by rw [hshown]; decide +kernel)
    refine ⟨c, hrun, ?_⟩
    rw [htell.load, hshown]
    rfl
  · obtain ⟨u, hshown, _, herror⟩ := hfound (Nat.pow 10 4300)
    exact herror (by rw [hshown]; decide +kernel)

end LoadThenStore

end Hazard
