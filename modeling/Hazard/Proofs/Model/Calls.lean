import Hazard.Model.Query
import Hazard.Proofs.Explore
import Mathlib.Algebra.GroupWithZero.Nat
import Mathlib.Data.List.Nodup

set_option autoImplicit false

/-! # Chains of calls

Who can run a function is a question about chains of calls. A chain starts at the function that a
task or a handler enters, each of its functions calls the next one, and all of them are defined. It
may come back to a function any number of times. The search of `Model.reachableFunctions` finds just
the functions at the ends of such chains (`mem_reachableFunctions_iff`), so that the tasks which can
run a function, and those of them which share a binding there, can be told without it.

A name stands for the first function that has it. Where the functions have different names every
function is what its name stands for (`DistinctFunctions.function?_name`). -/

namespace Hazard

namespace Model

variable (m : Model)

/-! ## Names of functions -/

theorem name_of_function? {m : Model} {name : String} {f : Function}
    (h : m.function? name = some f) : f.name = name := by
  simpa using List.find?_some h

theorem function?_isSome_iff (name : String) :
    (m.function? name).isSome = true ↔ name ∈ m.functions.map (·.name) := by
  simp [function?, List.find?_isSome]

/-- No two functions have the same name. -/
def DistinctFunctions : Prop := (m.functions.map (·.name)).Nodup

instance : Decidable m.DistinctFunctions := inferInstanceAs (Decidable (List.Nodup _))

theorem DistinctFunctions.function?_name {m : Model} (h : m.DistinctFunctions) {f : Function}
    (hf : f ∈ m.functions) : m.function? f.name = some f := by
  obtain ⟨g, hg⟩ := Option.isSome_iff_exists.mp
    ((m.function?_isSome_iff f.name).mpr (List.mem_map_of_mem hf))
  have hmem : g ∈ m.functions := List.mem_of_find?_eq_some hg
  rw [hg, List.inj_on_of_nodup_map h hmem hf (name_of_function? hg)]

theorem DistinctFunctions.function?_iff {m : Model} (h : m.DistinctFunctions) (name : String)
    (f : Function) : m.function? name = some f ↔ f ∈ m.functions ∧ f.name = name := by
  constructor
  · intro hf
    exact ⟨List.mem_of_find?_eq_some hf, name_of_function? hf⟩
  · rintro ⟨hf, rfl⟩
    exact h.function?_name hf

/-! ## Chains -/

/-- The list of functions is a chain of calls from `entry`, and its last function is `name`. -/
inductive CallChain (entry : String) : (name : String) → List String → Prop where
  | start (h : (m.function? entry).isSome = true) : CallChain entry entry [entry]
  | call {caller callee : String} {f : Function} {chain : List String}
      (h : CallChain entry caller chain) (hf : m.function? caller = some f)
      (hcall : callee ∈ f.calls) (hcallee : (m.function? callee).isSome = true) :
      CallChain entry callee (chain ++ [callee])

/-- A chain of calls leads from `entry` to the function. -/
def Runs (entry name : String) : Prop := ∃ chain, m.CallChain entry name chain

theorem mem_callees_iff (caller callee : String) :
    callee ∈ m.callees caller ↔
      ∃ f, m.function? caller = some f ∧ callee ∈ f.calls
        ∧ (m.function? callee).isSome = true := by
  unfold callees
  cases m.function? caller with
  | none => simp
  | some f => simp [List.mem_filter]

/-- Chains of calls are what following calls to defined functions amounts to. -/
theorem runs_iff (entry name : String) :
    m.Runs entry name ↔ (m.function? entry).isSome = true
      ∧ Relation.ReflTransGen (fun a b => b ∈ m.callees a) entry name := by
  constructor
  · rintro ⟨chain, h⟩
    induction h with
    | start h => exact ⟨h, .refl⟩
    | call _ hf hcall hcallee ih =>
        exact ⟨ih.1, ih.2.tail ((m.mem_callees_iff _ _).mpr ⟨_, hf, hcall, hcallee⟩)⟩
  · rintro ⟨hentry, hreach⟩
    induction hreach with
    | refl => exact ⟨[entry], .start hentry⟩
    | tail _ hcall ih =>
        obtain ⟨chain, hchain⟩ := ih
        obtain ⟨f, hf, hcall, hcallee⟩ := (m.mem_callees_iff _ _).mp hcall
        exact ⟨_, hchain.call hf hcall hcallee⟩

/-! ## What the search finds -/

/-- Calls lead from functions to functions, so that there is room for all that can be found. -/
theorem mem_names_of_mem_callees {caller callee : String} (h : callee ∈ m.callees caller) :
    callee ∈ m.functions.map (·.name) := by
  obtain ⟨_, _, _, hcallee⟩ := (m.mem_callees_iff caller callee).mp h
  exact (m.function?_isSome_iff callee).mp hcallee

theorem mem_names_of_mem_root {entry : String} (h : (m.function? entry).isSome = true) :
    ∀ r ∈ [entry], r ∈ m.functions.map (·.name) := by
  intro r hr
  rw [List.mem_singleton.mp hr]
  exact (m.function?_isSome_iff entry).mp h

/-- The search finds the functions that chains of calls lead to. -/
theorem mem_reachableFunctions_iff (entry name : String) :
    name ∈ m.reachableFunctions entry ↔ m.Runs entry name := by
  rw [runs_iff, reachableFunctions]
  split
  · next hentry =>
      rw [mem_exploreFrom_iff (fun _ _ _ h => m.mem_names_of_mem_callees h)
        (m.mem_names_of_mem_root hentry) (by simp)]
      simp [hentry]
  · next hentry => simp [hentry]

/-- Each function is found once. -/
theorem reachableFunctions_nodup (entry : String) : (m.reachableFunctions entry).Nodup := by
  rw [reachableFunctions]
  split
  · next hentry =>
      have hfound : ((exploreFrom id m.callees m.functions.length [entry]).map id).Nodup :=
        exploreFrom_nodup (fun _ _ _ h => m.mem_names_of_mem_callees h)
          (m.mem_names_of_mem_root hentry) (by simp)
      rwa [List.map_id] at hfound
  · exact List.nodup_nil

instance (entry name : String) : Decidable (m.Runs entry name) :=
  decidable_of_iff _ (m.mem_reachableFunctions_iff entry name)

/-! ## Tasks -/

theorem tasksReaching_eq (function : String) :
    m.tasksReaching function = m.tasks.filter fun t => m.Runs t.entry function := by
  simp only [tasksReaching, mem_reachableFunctions_iff]

theorem mem_tasksReaching_iff (function : String) (t : Task) :
    t ∈ m.tasksReaching function ↔ t ∈ m.tasks ∧ m.Runs t.entry function := by
  rw [tasksReaching_eq, List.mem_filter, decide_eq_true_eq]

/-- A task can run the function and does not have its own copy of the binding. -/
def Shares (t : Task) (function binding : String) : Prop :=
  m.Runs t.entry function ∧ ¬∃ c ∈ t.captures, c.binding = binding ∧ c.mode = .byValue

instance (t : Task) (function binding : String) : Decidable (m.Shares t function binding) :=
  inferInstanceAs (Decidable (_ ∧ _))

theorem mem_sharingTasks_iff (function binding : String) (t : Task) :
    t ∈ m.sharingTasks function binding ↔ t ∈ m.tasks ∧ m.Shares t function binding := by
  rw [sharingTasks, List.mem_filter, mem_tasksReaching_iff, and_assoc, Shares]
  simp [Task.copies]

theorem sharingTasks_ne_nil_iff (function binding : String) :
    m.sharingTasks function binding ≠ [] ↔ ∃ t ∈ m.tasks, m.Shares t function binding := by
  constructor
  · intro hne
    obtain ⟨t, ht⟩ := List.exists_mem_of_ne_nil _ hne
    exact ⟨t, (m.mem_sharingTasks_iff function binding t).mp ht⟩
  · rintro ⟨t, ht⟩
    exact List.ne_nil_of_mem ((m.mem_sharingTasks_iff function binding t).mpr ht)

/-- How many tasks those with a property count for: a replicated one for two, any other for one. -/
def weightOf (P : Task → Prop) [DecidablePred P] : Nat :=
  ((m.tasks.filter (P ·)).map fun t => if t.replicated then 2 else 1).sum

end Model

namespace Task

theorem totalWeight_eq_sum (ts : List Task) : totalWeight ts = (ts.map weight).sum := by
  induction ts with
  | nil => rfl
  | cons t ts ih => rw [List.map_cons, List.sum_cons, ← ih]; rfl

theorem totalWeight_eq_weightOf {m : Model} {P : Task → Prop} [DecidablePred P] {ts : List Task}
    (h : ts.Perm (m.tasks.filter (P ·))) : totalWeight ts = m.weightOf P := by
  rw [totalWeight_eq_sum]
  exact (h.map weight).sum_nat

end Task

end Hazard
