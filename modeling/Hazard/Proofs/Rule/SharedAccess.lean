import Hazard.Proofs.Rule.Sites
import Mathlib

set_option autoImplicit false

/-! # Accesses that tasks share

The rule about unguarded accesses works through the bindings of a unit, collects the accesses that
tasks share and the tasks behind them, and then drops the accesses that are guarded. This module
says in the terms of the unit what is left: an access is reported when control can reach it, some
task makes it without having its own copy of the binding, no lock protects the binding there, and
the tasks that share the binding anywhere are enough. It is reported once, and in the order in which
the unit lists its bindings, its functions and their accesses (`evaluate_eq_raced`).

The tasks are counted over all accesses that control can reach, also over those that are guarded.
They are kept by name, which comes to the same as keeping them where their names are different. -/

namespace Hazard

/-! ## The accesses of a unit -/

namespace Model

variable (m : Model)

/-- Every access with the function it is in, in the order of the unit. -/
def accesses : List (Function × Access) :=
  m.functions.flatMap fun f => f.accesses.map fun a => (f, a)

theorem mem_accesses_iff (f : Function) (a : Access) :
    (f, a) ∈ m.accesses ↔ f ∈ m.functions ∧ a ∈ f.accesses := by
  simp only [accesses, List.mem_flatMap, List.mem_map, Prod.mk.injEq]
  constructor
  · rintro ⟨g, hg, x, hx, rfl, rfl⟩
    exact ⟨hg, hx⟩
  · rintro ⟨hf, ha⟩
    exact ⟨f, hf, a, ha, rfl, rfl⟩

theorem accessesOf_eq_filter (binding : String) :
    m.accessesOf binding = m.accesses.filter fun site => site.2.binding == binding := by
  simp [accessesOf, accesses, List.filter_flatMap, List.filter_map, Function.comp_def]

/-- No two tasks have the same name. -/
def DistinctTasks : Prop := (m.tasks.map (·.name)).Nodup

instance : Decidable m.DistinctTasks := inferInstanceAs (Decidable (List.Nodup _))

end Model

namespace UnguardedAccess

/-! ## What is to be reported -/

/-- The access is one to the binding, and control can reach it. -/
def IsLive (b : Binding) (f : Function) (a : Access) : Prop :=
  a.binding = b.name ∧ f.graph.Reachable a.block

instance (b : Binding) (f : Function) (a : Access) : Decidable (IsLive b f a) :=
  inferInstanceAs (Decidable (_ ∧ _))

/-- The task makes some live access to the binding without having its own copy of it. -/
def IsSharer (m : Model) (b : Binding) (t : Task) : Prop :=
  ∃ f ∈ m.functions, ∃ a ∈ f.accesses, IsLive b f a ∧ m.Shares t f.name b.name

instance (m : Model) (b : Binding) : DecidablePred (IsSharer m b) := fun _ =>
  inferInstanceAs (Decidable (∃ f ∈ m.functions, ∃ a ∈ f.accesses, _))

/-- The access of the function is one that tasks race for: it is a live access to a binding that
    changes, and not atomically, some task makes it and no lock protects it, and the tasks that
    share the binding are enough. -/
@[mk_iff]
structure Raced (m : Model) (minTasks : Int) (b : Binding) (f : Function) (a : Access) : Prop where
  mutable : b.mutable = true
  notAtomic : b.category ≠ .atomic
  live : IsLive b f a
  shared : ∃ t ∈ m.tasks, m.Shares t f.name b.name
  unguarded : m.isGuarded f.name a.block b.name = false
  enough : minTasks ≤ m.weightOf (IsSharer m b)

instance (m : Model) (minTasks : Int) (b : Binding) (f : Function) (a : Access) :
    Decidable (Raced m minTasks b f a) :=
  decidable_of_iff _ (raced_iff m minTasks b f a).symm

/-- Whether an access is reported for a binding: enough tasks share the binding, which changes, and
    not atomically, no lock protects it at the access, and some task makes the access, which control
    can reach. -/
def isReported (m : Model) (minTasks : Number) (b : Binding) (site : Function × Access) : Bool :=
  (b.isContested && !(Number.int (sharedWeight m b.name)).lt minTasks)
    && (!m.isGuarded site.1.name site.2.block b.name
      && (site.2.binding == b.name && (!(m.sharingTasks site.1.name b.name).isEmpty
        && m.isReachable site.1.name site.2.block)))

/-- The bindings with the accesses of the unit, in the order of the bindings, then of the functions,
    then of the accesses in a function. -/
def allSites (m : Model) : List (Binding × Function × Access) :=
  m.bindings.flatMap fun b => m.accesses.map fun site => (b, site)

/-- The candidate is about the access of the function to the binding. It names the tasks that share
    the binding, each once and in order. -/
structure Tells (m : Model) (b : Binding) (f : Function) (a : Access) (c : Candidate) : Prop where
  rule : c.rule = "RC.2"
  location : c.location = m.locate [a.location, f.location]
  waivers : c.waivers = a.waivers
  binding : c.extras.lookup "binding" = some (.text b.name)
  access : c.extras.lookup "access" = some (.text (Worded.word a.kind))
  tasks : ∃ names : List String, c.extras.lookup "tasks" = some (.texts names)
    ∧ (names.Pairwise fun a b => Text.codes a < Text.codes b)
    ∧ ∀ name, name ∈ names ↔ ∃ t ∈ m.tasks, IsSharer m b t ∧ t.name = name

/-! ## The tasks that share a binding -/

section Distinct

variable {m : Model} (hfunctions : m.DistinctFunctions)

include hfunctions

theorem shared_iff (b : Binding) (f : Function) (a : Access) :
    Shared m b.name f a ↔
      (f, a) ∈ m.accesses ∧ IsLive b f a ∧ ∃ t ∈ m.tasks, m.Shares t f.name b.name := by
  constructor
  · rintro ⟨haccess, hreachable, hsharing⟩
    obtain ⟨hf, ha, hbinding⟩ := (m.mem_accessesOf_iff _ f a).mp haccess
    exact ⟨(m.mem_accesses_iff f a).mpr ⟨hf, ha⟩,
      ⟨hbinding, (hfunctions.isReachable_name hf a.block).mp hreachable⟩,
      (m.sharingTasks_ne_nil_iff _ _).mp hsharing⟩
  · rintro ⟨hsite, ⟨hbinding, hreachable⟩, hsharing⟩
    obtain ⟨hf, ha⟩ := (m.mem_accesses_iff f a).mp hsite
    exact ⟨(m.mem_accessesOf_iff _ f a).mpr ⟨hf, ha, hbinding⟩,
      (hfunctions.isReachable_name hf a.block).mpr hreachable,
      (m.sharingTasks_ne_nil_iff _ _).mpr hsharing⟩

/-- The tasks listed with the shared accesses to a binding are those that share it. -/
theorem mem_tasks_sharedSites_iff (b : Binding) (t : Task) :
    t ∈ (sharedSites m m.taskReach b.name).flatMap (·.2.2) ↔ t ∈ m.tasks ∧ IsSharer m b t := by
  rw [List.mem_flatMap]
  constructor
  · rintro ⟨⟨f, a, tasks⟩, hsite, ht⟩
    obtain ⟨hshared, rfl⟩ := (mem_sharedSites_iff m b.name f a tasks).mp hsite
    obtain ⟨hmem, hlive, _⟩ := (shared_iff hfunctions b f a).mp hshared
    obtain ⟨hf, ha⟩ := (m.mem_accesses_iff f a).mp hmem
    obtain ⟨htask, hshares⟩ := (m.mem_sharingTasks_iff _ _ t).mp ht
    exact ⟨htask, f, hf, a, ha, hlive, hshares⟩
  · rintro ⟨htask, f, hf, a, ha, hlive, hshares⟩
    have hshared : Shared m b.name f a := (shared_iff hfunctions b f a).mpr
      ⟨(m.mem_accesses_iff f a).mpr ⟨hf, ha⟩, hlive, t, htask, hshares⟩
    exact ⟨(f, a, _), (mem_sharedSites_iff m b.name f a _).mpr ⟨hshared, rfl⟩,
      (m.mem_sharingTasks_iff _ _ t).mpr ⟨htask, hshares⟩⟩

variable (htasks : m.DistinctTasks)

include htasks

theorem mem_sharingTasks_iff (b : Binding) (t : Task) :
    t ∈ sharingTasks (sharedSites m m.taskReach b.name) ↔ t ∈ m.tasks ∧ IsSharer m b t := by
  -- Tasks of the unit with the same name are the same task, so none takes the place of another.
  have hinj : ∀ x ∈ ((sharedSites m m.taskReach b.name).flatMap (·.2.2)).reverse,
      ∀ y ∈ ((sharedSites m m.taskReach b.name).flatMap (·.2.2)).reverse,
      x.name = y.name → x = y := by
    intro x hx y hy
    rw [List.mem_reverse, mem_tasks_sharedSites_iff hfunctions] at hx hy
    exact List.inj_on_of_nodup_map htasks hx.1 hy.1
  rw [sharingTasks, mem_novel_iff_of_inj hinj, List.mem_reverse,
    mem_tasks_sharedSites_iff hfunctions]

theorem sharingTasks_perm (b : Binding) :
    (sharingTasks (sharedSites m m.taskReach b.name)).Perm (m.tasks.filter (IsSharer m b ·)) := by
  have hkept : (sharingTasks (sharedSites m m.taskReach b.name)).Nodup :=
    (novel_keys_nodup Task.name [] _).of_map
  have hall : (m.tasks.filter (IsSharer m b ·)).Nodup := htasks.of_map.filter _
  refine (List.perm_ext_iff_of_nodup hkept hall).mpr fun t => ?_
  rw [mem_sharingTasks_iff hfunctions htasks, List.mem_filter, decide_eq_true_eq]

theorem sharedWeight_eq (b : Binding) : sharedWeight m b.name = m.weightOf (IsSharer m b) :=
  Task.totalWeight_eq_weightOf (sharingTasks_perm hfunctions htasks b)

/-! ## What is reported -/

omit hfunctions htasks in
/-- The shared accesses to a binding, taken from all accesses of the unit in their order. -/
theorem sharedSites_eq (binding : String) :
    sharedSites m m.taskReach binding
      = (m.accesses.filter fun site => site.2.binding == binding
          && (!(m.sharingTasks site.1.name binding).isEmpty
            && m.isReachable site.1.name site.2.block)).map fun site =>
        (site.1, site.2, m.sharingTasks site.1.name binding) := by
  rw [sharedSites, Model.accessesOf_eq_filter, List.filterMap_filter, ← List.filterMap_eq_map,
    List.filterMap_filter]
  refine List.filterMap_congr fun site _ => ?_
  simp only [Model.sharingAmong_taskReach, Function.comp_apply]
  cases site.2.binding == binding with
  | false => rfl
  | true => simp

omit hfunctions htasks in
/-- The candidates for a binding, taken from all accesses of the unit in their order. -/
theorem map_snd_reportsFor (minTasks : Number) (b : Binding) :
    (reportsFor m minTasks b).map (·.2)
      = (m.accesses.filter (isReported m minTasks b)).map fun site =>
        finding m b (Text.sorted ((sharingTasks (sharedSites m m.taskReach b.name)).map (·.name)))
          site.1 site.2 := by
  unfold reportsFor
  dsimp only
  split_ifs with henough
  · rw [sharedSites_eq, List.filter_map, List.filter_filter, List.map_map, List.map_map,
      ← sharedSites_eq]
    refine congrArg (List.map _) (List.filter_congr fun site _ => ?_)
    rw [isReported, henough, Bool.true_and]
    rfl
  · rw [List.map_nil, eq_comm, List.map_eq_nil_iff, List.filter_eq_nil_iff]
    intro site _ hreported
    rw [isReported, Bool.and_eq_true] at hreported
    exact henough hreported.1

omit hfunctions htasks in
theorem isReported_iff (minTasks : Number) (b : Binding) {site : Function × Access}
    (hsite : site ∈ m.accesses) :
    isReported m minTasks b site = true ↔
      (b.isContested = true ∧ (Number.int (sharedWeight m b.name)).lt minTasks = false)
        ∧ Shared m b.name site.1 site.2
        ∧ m.isGuarded site.1.name site.2.block b.name = false := by
  have hmem := (m.mem_accesses_iff site.1 site.2).mp hsite
  simp only [isReported, Bool.and_eq_true, Bool.not_eq_true', beq_iff_eq,
    List.isEmpty_eq_false_iff]
  refine and_congr_right fun _ => ?_
  constructor
  · rintro ⟨hunguarded, hbinding, hsharing, hreachable⟩
    have haccess := (m.mem_accessesOf_iff _ _ _).mpr ⟨hmem.1, hmem.2, hbinding⟩
    exact ⟨⟨haccess, hreachable, hsharing⟩, hunguarded⟩
  · rintro ⟨⟨haccess, hreachable, hsharing⟩, hunguarded⟩
    exact ⟨hunguarded, ((m.mem_accessesOf_iff _ _ _).mp haccess).2.2, hsharing, hreachable⟩

/-- An access is reported for a binding when it is one that tasks race for. -/
theorem raced_iff_shared (minTasks : Int) (b : Binding) {site : Function × Access}
    (hsite : site ∈ m.accesses) :
    Raced m minTasks b site.1 site.2 ↔
      (b.isContested = true ∧ (Number.int (sharedWeight m b.name)).lt (.int minTasks) = false)
        ∧ Shared m b.name site.1 site.2
        ∧ m.isGuarded site.1.name site.2.block b.name = false := by
  rw [raced_iff, shared_iff hfunctions, sharedWeight_eq hfunctions htasks]
  simp only [Binding.isContested, Number.lt, Bool.and_eq_true, bne_iff_ne, decide_eq_false_iff_not,
    not_lt, hsite, true_and]
  tauto

theorem candidatesFor_eq (minTasks : Int) (b : Binding) :
    (reportsFor m (.int minTasks) b).map (·.2)
      = (m.accesses.filter fun site => Raced m minTasks b site.1 site.2).map fun site =>
        finding m b (Text.sorted ((sharingTasks (sharedSites m m.taskReach b.name)).map (·.name)))
          site.1 site.2 := by
  rw [map_snd_reportsFor]
  refine congrArg (List.map _) (List.filter_congr fun site hsite => ?_)
  rw [Bool.eq_iff_iff, decide_eq_true_eq, raced_iff_shared hfunctions htasks minTasks b hsite,
    isReported_iff _ b hsite]

theorem finding_tells (b : Binding) (f : Function) (a : Access) :
    Tells m b f a (finding m b
      (Text.sorted ((sharingTasks (sharedSites m m.taskReach b.name)).map (·.name))) f a) where
  rule := rfl
  location := rfl
  waivers := rfl
  binding := rfl
  access := rfl
  tasks := by
    refine ⟨_, rfl, Text.sorted_ascending (novel_keys_nodup Task.name [] _), fun name => ?_⟩
    rw [Text.mem_sorted, List.mem_map]
    simp only [mem_sharingTasks_iff hfunctions htasks, and_assoc]

end Distinct

/-- **The accesses that tasks race for are reported, and nothing else.** Where functions have
    different names and tasks have different names, the rule returns one candidate for each access
    that tasks race for, in the order of the bindings, the functions and the accesses of the
    unit. -/
theorem evaluate_eq_raced {m : Model} {s : RuleSettings} {minTasks : Int}
    (hfunctions : m.DistinctFunctions) (htasks : m.DistinctTasks)
    (hmin : s.threshold "min_tasks" = .ok (.int minTasks)) :
    ∃ candidates, rule.evaluate m s = .ok candidates
      ∧ List.Forall₂ (fun (b, f, a) c => Tells m b f a c)
        ((allSites m).filter fun (b, f, a) => Raced m minTasks b f a) candidates := by
  have hall : (reports m (.int minTasks)).map (·.2)
      = ((allSites m).filter fun (b, f, a) => Raced m minTasks b f a).map fun (b, f, a) =>
        finding m b (Text.sorted ((sharingTasks (sharedSites m m.taskReach b.name)).map (·.name)))
          f a := by
    rw [reports, allSites, List.map_flatMap, List.filter_flatMap, List.map_flatMap]
    refine List.flatMap_congr fun b _ => ?_
    rw [candidatesFor_eq hfunctions htasks, List.filter_map, List.map_map]
    rfl
  refine ⟨_, evaluate_eq hmin rfl, ?_⟩
  rw [hall, List.forall₂_map_right_iff, List.forall₂_same]
  intro site _
  exact finding_tells hfunctions htasks site.1 site.2.1 site.2.2

/-- An access that writes to `n`. -/
def increment : Access := { binding := "n", kind := .write }

/-- A function that writes to `n`. -/
def incrementing (name : String) : Function := { name, accesses := [increment] }

/-- A unit in which two tasks write to `n`, one of them with a lock held, and a third task writes to
    its own copy. -/
def halfGuarded : Model where
  unit := "u"
  bindings := [{ name := "n" }]
  functions := [incrementing "f", incrementing "g"]
  sections := [{ lock := "mu", function := "g" }]
  tasks := [{ name := "b", entry := "g" }, { name := "a", entry := "f" },
    { name := "c", entry := "f", captures := [{ binding := "n", mode := .byValue }] }]

/-- The task with the lock counts, so that the write without one is reported. -/
theorem evaluate_eq_raced_halfGuarded :
    ∃ c, rule.evaluate halfGuarded info.defaults = .ok [c]
      ∧ Tells halfGuarded { name := "n" } (incrementing "f") increment c := by
  obtain ⟨candidates, hrun, hsites⟩ := evaluate_eq_raced (m := halfGuarded) (s := info.defaults)
    (by decide) (by decide) rfl
  have hall : allSites halfGuarded = [({ name := "n" }, incrementing "f", increment),
    ({ name := "n" }, incrementing "g", increment)] := rfl
  have hraced : Raced halfGuarded 2 { name := "n" } (incrementing "f") increment :=
    ⟨rfl, by decide, by decide +kernel, by decide +kernel, rfl, by decide +kernel⟩
  have hguarded : ¬Raced halfGuarded 2 { name := "n" } (incrementing "g") increment := by
    intro h
    have htrue : halfGuarded.isGuarded "g" 0 "n" = true := by cbv
    exact Bool.false_ne_true (h.unguarded.symm.trans htrue)
  rw [hall, List.filter_cons_of_pos (by simpa using hraced),
    List.filter_cons_of_neg (by simpa using hguarded), List.filter_nil] at hsites
  cases hsites with
  | @cons _ c _ _ htells hrest =>
      cases hrest with
      | nil => exact ⟨c, hrun, htells⟩

end UnguardedAccess

end Hazard
