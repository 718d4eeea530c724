import Hazard.Proofs.Explore
import Hazard.Proofs.Model.Calls
import Hazard.Proofs.Number
import Hazard.Proofs.Rule.Sites

set_option autoImplicit false

/-! # More tasks that share state

Whether the accesses to a binding are reported depends on how many tasks share it, and one would
expect that another task can only add to that. But the tasks are counted by name, the last task of a
name speaks for all of them, and a replicated task counts for two. So a task that takes the name of
a replicated one and is not replicated itself takes a task away. Apart from that, nothing that is
reported is lost when there are more tasks.

The tasks that make the accesses are listed access by access, and in the list for a unit with more
tasks the new ones stand among the old ones (`Interspersed`). So the last task of a name is the one
that it was, or a new one. -/

namespace Hazard

/-! ## More tasks -/

/-- The same facts with more tasks. -/
def Model.withTasks (m : Model) (ts : List Task) : Model := { m with tasks := m.tasks ++ ts }

namespace Model

variable (m : Model) (ts : List Task)

theorem tasksReaching_withTasks (function : String) :
    (m.withTasks ts).tasksReaching function
      = m.tasksReaching function ++ ts.filter fun t => function ∈ m.reachableFunctions t.entry :=
  List.filter_append ..

theorem sharingTasks_withTasks (function binding : String) :
    ∃ new, new ⊆ ts ∧
      (m.withTasks ts).sharingTasks function binding = m.sharingTasks function binding ++ new := by
  refine ⟨(ts.filter fun t => function ∈ m.reachableFunctions t.entry).filter fun t =>
    !t.copies binding, fun t ht => ?_, ?_⟩
  · exact (List.mem_filter.mp (List.mem_filter.mp ht).1).1
  · rw [sharingTasks, tasksReaching_withTasks, List.filter_append]
    rfl

end Model

/-! ## Weights -/

namespace Task

theorem weight_le {t u : Task} (h : t.replicated = true → u.replicated = true) :
    t.weight ≤ u.weight := by
  unfold weight
  split_ifs with ht hu
  · exact Nat.le_refl 2
  · exact absurd (h ht) hu
  · decide
  · exact Nat.le_refl 1

/-- Tasks of different names count for no more than others if each of them has one of its name among
    these that counts for no less. -/
theorem totalWeight_le {ts us : List Task} (hnames : (ts.map name).Nodup)
    (h : ∀ t ∈ ts, ∃ u ∈ us, u.name = t.name ∧ t.weight ≤ u.weight) :
    totalWeight ts ≤ totalWeight us := by
  induction ts generalizing us with
  | nil => exact Nat.zero_le _
  | cons t ts ih =>
      obtain ⟨u, hu, hname, hweight⟩ := h t List.mem_cons_self
      rw [List.map_cons, List.nodup_cons] at hnames
      have hrest : totalWeight ts ≤ totalWeight (us.erase u) := by
        refine ih hnames.2 fun t' ht' => ?_
        obtain ⟨u', hu', hname', hweight'⟩ := h t' (List.mem_cons_of_mem _ ht')
        -- A task of another name is another task.
        have hne : u' ≠ u := by
          rintro rfl
          exact hnames.1 (hname ▸ hname' ▸ List.mem_map_of_mem ht')
        exact ⟨u', (List.mem_erase_of_ne hne).mpr hu', hname', hweight'⟩
      have hsplit : totalWeight us = u.weight + totalWeight (us.erase u) := by
        rw [totalWeight_eq_sum, ((List.perm_cons_erase hu).map weight).sum_nat]
        simp [totalWeight_eq_sum]
      calc totalWeight (t :: ts) = t.weight + totalWeight ts := rfl
        _ ≤ u.weight + totalWeight (us.erase u) := Nat.add_le_add hweight hrest
        _ = totalWeight us := hsplit.symm

end Task

/-! ## Tasks among others -/

/-- The second list is the first one with some of the new items put in between. -/
inductive Interspersed {α : Type} (new : List α) : List α → List α → Prop
  | nil : Interspersed new [] []
  | keep (x : α) {xs ys : List α} (h : Interspersed new xs ys) :
      Interspersed new (x :: xs) (x :: ys)
  | add {x : α} (hx : x ∈ new) {xs ys : List α} (h : Interspersed new xs ys) :
      Interspersed new xs (x :: ys)

namespace Interspersed

variable {α β : Type} {new xs ys xs' ys' : List α}

theorem of_subset (h : ys ⊆ new) : Interspersed new [] ys := by
  induction ys with
  | nil => exact .nil
  | cons y ys ih =>
      exact .add (h List.mem_cons_self) (ih fun y' hy' => h (List.mem_cons_of_mem _ hy'))

theorem append_subset (xs : List α) (h : ys ⊆ new) : Interspersed new xs (xs ++ ys) := by
  induction xs with
  | nil => exact of_subset h
  | cons x xs ih => exact .keep x ih

theorem append (h : Interspersed new xs ys) (h' : Interspersed new xs' ys') :
    Interspersed new (xs ++ xs') (ys ++ ys') := by
  induction h with
  | nil => exact h'
  | keep x _ ih => exact .keep x ih
  | add hx _ ih => exact .add hx ih

theorem flatMap {items : List β} {f g : β → List α}
    (h : ∀ item ∈ items, Interspersed new (f item) (g item)) :
    Interspersed new (items.flatMap f) (items.flatMap g) := by
  induction items with
  | nil => exact .nil
  | cons item items ih =>
      rw [List.flatMap_cons, List.flatMap_cons]
      exact (h item List.mem_cons_self).append (ih fun i hi => h i (List.mem_cons_of_mem _ hi))

theorem reverse (h : Interspersed new xs ys) : Interspersed new xs.reverse ys.reverse := by
  induction h with
  | nil => exact .nil
  | keep x _ ih =>
      rw [List.reverse_cons, List.reverse_cons]
      exact ih.append (.keep x .nil)
  | @add x hx xs ys _ ih =>
      rw [List.reverse_cons, ← List.append_nil xs.reverse]
      exact ih.append (.add hx .nil)

/-- What is found first is what it was, or new. -/
theorem find? {p : α → Bool} (h : Interspersed new xs ys) {x : α} (hx : xs.find? p = some x) :
    ∃ y, ys.find? p = some y ∧ (y = x ∨ y ∈ new) := by
  induction h with
  | nil => simp at hx
  | @keep x' xs ys _ ih =>
      by_cases hp : p x' = true
      · rw [List.find?_cons_of_pos hp] at hx ⊢
        exact ⟨x', rfl, .inl (Option.some.inj hx)⟩
      · rw [List.find?_cons_of_neg hp] at hx ⊢
        exact ih hx
  | @add x' hx' xs ys _ ih =>
      by_cases hp : p x' = true
      · rw [List.find?_cons_of_pos hp]
        exact ⟨x', rfl, .inr hx'⟩
      · rw [List.find?_cons_of_neg hp]
        exact ih hx

end Interspersed

/-! ## The tasks that share a binding -/

namespace UnguardedAccess

/-- The tasks that make the accesses to a binding, access by access. -/
theorem flatMap_sharedSites (m : Model) (binding : String) :
    (sharedSites m m.taskReach binding).flatMap (·.2.2)
      = (m.accessesOf binding).flatMap fun (f, a) =>
        if m.isReachable f.name a.block then m.sharingTasks f.name binding else [] := by
  rw [sharedSites, List.filterMap_eq_flatMap_toList, List.flatMap_assoc]
  refine List.flatMap_congr fun site _ => ?_
  dsimp only
  rw [Model.sharingAmong_taskReach]
  by_cases hreachable : m.isReachable site.1.name site.2.block = true
  · by_cases htasks : m.sharingTasks site.1.name binding = []
    · simp [hreachable, htasks]
    · simp [hreachable, htasks]
  · simp [hreachable]

theorem mem_tasks_of_mem_sharedSites {m : Model} {binding : String} {t : Task}
    (h : t ∈ (sharedSites m m.taskReach binding).flatMap (·.2.2)) : t ∈ m.tasks := by
  obtain ⟨⟨f, a, tasks⟩, hsite, ht⟩ := List.mem_flatMap.mp h
  obtain ⟨_, rfl⟩ := (mem_sharedSites_iff m binding f a tasks).mp hsite
  exact (List.mem_filter.mp (List.mem_filter.mp ht).1).1

theorem interspersed_withTasks (m : Model) (ts : List Task) (binding : String) :
    Interspersed ts ((sharedSites m m.taskReach binding).flatMap (·.2.2))
      ((sharedSites (m.withTasks ts) (m.withTasks ts).taskReach binding).flatMap (·.2.2)) := by
  rw [flatMap_sharedSites, flatMap_sharedSites]
  refine .flatMap fun site _ => ?_
  show Interspersed ts _ (if m.isReachable site.1.name site.2.block then _ else _)
  dsimp only
  split_ifs
  · obtain ⟨new, hnew, heq⟩ := m.sharingTasks_withTasks ts site.1.name binding
    rw [heq]
    exact .append_subset _ hnew
  · exact .nil

/-- Tasks that come in addition do not take away from the weight of those that share a binding,
    unless one of them has the name of a replicated one and is not replicated itself. -/
theorem sharedWeight_le_withTasks {m : Model} {ts : List Task}
    (hnames : ∀ t ∈ m.tasks, ∀ u ∈ ts, u.name = t.name → t.replicated = true → u.replicated = true)
    (binding : String) : sharedWeight m binding ≤ sharedWeight (m.withTasks ts) binding := by
  refine Task.totalWeight_le (novel_keys_nodup Task.name [] _) fun t ht => ?_
  have hfirst := ((mem_novel_iff Task.name [] _ t).mp ht).2
  obtain ⟨u, hu, hold⟩ := (interspersed_withTasks m ts binding).reverse.find? hfirst
  have hname : u.name = t.name := by simpa using List.find?_some hu
  refine ⟨u, (mem_novel_iff Task.name [] _ u).mpr ⟨List.not_mem_nil, hname ▸ hu⟩, hname, ?_⟩
  rcases hold with rfl | hu
  · exact Nat.le_refl _
  · refine Task.weight_le (hnames t ?_ u hu hname)
    exact mem_tasks_of_mem_sharedSites (List.mem_reverse.mp (mem_of_mem_novel ht).1)

theorem Shared.withTasks {m : Model} {binding : String} {f : Function} {a : Access}
    (h : Shared m binding f a) (ts : List Task) : Shared (m.withTasks ts) binding f a := by
  refine ⟨h.access, h.reachable, ?_⟩
  obtain ⟨new, _, heq⟩ := m.sharingTasks_withTasks ts f.name binding
  rw [heq]
  exact List.append_ne_nil_of_left_ne_nil h.tasks new

/-- **More tasks do not hide an access that is reported**, unless one of them has the name of a
    replicated task and is not replicated itself. -/
theorem reported_withTasks {m : Model} {ts : List Task} {s : RuleSettings} {t : Value} {n : Number}
    (ht : s.threshold "min_tasks" = .ok t) (hn : t.number? = some n)
    (hnames : ∀ t ∈ m.tasks, ∀ u ∈ ts, u.name = t.name → t.replicated = true →
      u.replicated = true) :
    rule.evaluate m s = .ok ((reports m n).map (·.2))
      ∧ rule.evaluate (m.withTasks ts) s = .ok ((reports (m.withTasks ts) n).map (·.2))
      ∧ ∀ site ∈ (reports m n).map (·.1), site ∈ (reports (m.withTasks ts) n).map (·.1) := by
  refine ⟨evaluate_eq ht hn, evaluate_eq ht hn, fun ⟨f, a⟩ hsite => ?_⟩
  obtain ⟨b, hb, hcontested, henough, hshared, hunguarded⟩ := (mem_sites_iff m n f a).mp hsite
  refine (mem_sites_iff _ n f a).mpr
    ⟨b, hb, hcontested, ?_, hshared.withTasks ts, hunguarded⟩
  rw [Bool.eq_false_iff] at henough ⊢
  refine fun hfew => henough (Number.int_lt_of_le ?_ hfew)
  exact Int.ofNat_le.mpr (sharedWeight_le_withTasks hnames b.name)

/-- A function that writes to `x`. -/
def writer : Function := { name := "f", accesses := [{ binding := "x", kind := .write }] }

/-- A unit with a function that writes to `x` and a replicated task that runs it. -/
def writtenByMany : Model where
  unit := "u"
  bindings := [{ name := "x" }]
  functions := [writer]
  tasks := [{ name := "t", entry := "f", replicated := true }]

/-- The write stays reported when a task with a name of its own is added, and is hidden by a task
    with the name of the other one. -/
theorem reported_withTasks_writer :
    (∀ site ∈ (reports writtenByMany (.int 2)).map (·.1),
      site ∈ (reports (writtenByMany.withTasks [{ name := "v", entry := "f" }]) (.int 2)).map (·.1))
    ∧ (reports writtenByMany (.int 2)).length = 1
    ∧ reports (writtenByMany.withTasks [{ name := "t", entry := "f" }]) (.int 2) = [] := by
  have hnames : ∀ t ∈ writtenByMany.tasks, ∀ u ∈ [({ name := "v", entry := "f" } : Task)],
      u.name = t.name → t.replicated = true → u.replicated = true := by decide
  obtain ⟨_, _, hkept⟩ := reported_withTasks (s := info.defaults) (t := .int 2) rfl rfl hnames
  exact ⟨hkept, by decide +kernel, List.length_eq_zero_iff.mp (by decide +kernel)⟩

end UnguardedAccess

end Hazard
