import Hazard.Proofs.Rule.HandlerAccess
import Hazard.Proofs.Rule.SharedAccess

set_option autoImplicit false

/-! # Accesses to names that are declared more than once

A name can be declared in several scopes, and the unit then lists several bindings with that name,
or several functions. The rule about unguarded accesses works through the bindings, and for each of
them through all accesses to its name. So an access is reported once for each declaration of its
name that is mutable and not atomic, whichever of them the name stands for. Control is followed in
the graph of the function that the name of its function stands for, which need not be the function
that makes the access.

This module says what is reported for an arbitrary unit, and that each site is reported once and is
judged by its own declarations where names are not declared twice
(`evaluate_once_per_declaration`). -/

namespace Hazard

/-! ## Accesses by their positions -/

theorem flatMap_zipIdx_fst {α β : Type} (g : α → List β) (xs : List α) :
    xs.zipIdx.flatMap (fun x => g x.1) = xs.flatMap g := by
  conv_rhs => rw [← List.zipIdx_map_fst 0 xs, List.flatMap_map]

namespace Model

variable (m : Model)

/-- Every access with the function it is in, the position of the function in the unit and its own
    position in the function, in the order of the unit. -/
def accessesAt : List ((Nat × Nat) × Function × Access) :=
  m.functions.zipIdx.flatMap fun (f, k) => f.accesses.zipIdx.map fun (a, i) => ((k, i), f, a)

theorem map_snd_accessesAt : m.accessesAt.map (·.2) = m.accesses := by
  rw [accesses, ← flatMap_zipIdx_fst, accessesAt, List.map_flatMap]
  refine List.flatMap_congr fun x _ => ?_
  conv_rhs => rw [← List.zipIdx_map_fst 0 x.1.accesses]
  rw [List.map_map, List.map_map]
  rfl

theorem accessesAt_nodup : (m.accessesAt.map (·.1)).Nodup := by
  simp only [accessesAt, List.map_flatMap, List.map_map]
  refine nodup_flatMap_of_mark (·.2) (·.1) (List.nodup_zipIdx_map_snd m.functions) ?_ ?_
  · rintro ⟨f, k⟩ _ site hsite
    obtain ⟨_, _, rfl⟩ := List.mem_map.mp hsite
    rfl
  · rintro ⟨f, k⟩ _
    have hpositions := (List.nodup_zipIdx_map_snd f.accesses).map
      (f := fun i => (k, i)) fun i j hij => by simpa using hij
    rwa [List.map_map] at hpositions

theorem mem_accessesAt_iff (k i : Nat) (f : Function) (a : Access) :
    ((k, i), f, a) ∈ m.accessesAt ↔ m.functions[k]? = some f ∧ f.accesses[i]? = some a := by
  simp only [accessesAt, List.mem_flatMap, List.mem_map]
  constructor
  · rintro ⟨⟨f', k'⟩, hf, ⟨a', i'⟩, ha, hsite⟩
    obtain ⟨⟨rfl, rfl⟩, rfl, rfl⟩ : (k' = k ∧ i' = i) ∧ f' = f ∧ a' = a := by simpa using hsite
    exact ⟨List.mem_zipIdx_iff_getElem?.mp hf, List.mem_zipIdx_iff_getElem?.mp ha⟩
  · rintro ⟨hf, ha⟩
    exact ⟨(f, k), List.mem_zipIdx_iff_getElem?.mpr hf, (a, i),
      List.mem_zipIdx_iff_getElem?.mpr ha, rfl⟩

/-- No two bindings have the same name. -/
def DistinctBindings : Prop := (m.bindings.map (·.name)).Nodup

instance : Decidable m.DistinctBindings := inferInstanceAs (Decidable (List.Nodup _))

/-- No two bindings that change, and not atomically, have the same name. -/
def DistinctContested : Prop := ((m.bindings.filter (·.isContested)).map (·.name)).Nodup

instance : Decidable m.DistinctContested := inferInstanceAs (Decidable (List.Nodup _))

theorem DistinctBindings.binding?_name {m : Model} (h : m.DistinctBindings) {b : Binding}
    (hb : b ∈ m.bindings) : m.binding? b.name = some b := by
  obtain ⟨b', hb'⟩ : ∃ b', m.binding? b.name = some b' := by
    rw [← Option.isSome_iff_exists, binding?, List.find?_isSome]
    exact ⟨b, hb, beq_self_eq_true _⟩
  have hsame := List.inj_on_of_nodup_map h (List.mem_of_find?_eq_some hb') hb
    (name_of_binding? hb')
  rw [hb', hsame]

end Model

namespace UnguardedAccess

/-! ## What is reported -/

/-- The access of the function is reported for the binding. The block of the access is looked for in
    the function that the name of its function stands for. -/
structure Reported (m : Model) (minTasks : Number) (b : Binding) (f : Function) (a : Access) :
    Prop where
  binding : a.binding = b.name
  mutable : b.mutable = true
  notAtomic : b.category ≠ .atomic
  reachable : ∃ g, m.function? f.name = some g ∧ g.graph.Reachable a.block
  shared : ∃ t ∈ m.tasks, m.Shares t f.name b.name
  unguarded : m.isGuarded f.name a.block b.name = false
  enough : (Number.int (sharedWeight m b.name)).lt minTasks = false

theorem isReported_iff_reported {m : Model} (minTasks : Number) (b : Binding)
    {site : Function × Access} (hsite : site ∈ m.accesses) :
    isReported m minTasks b site = true ↔ Reported m minTasks b site.1 site.2 := by
  have hmem := (m.mem_accesses_iff site.1 site.2).mp hsite
  rw [isReported_iff minTasks b hsite]
  constructor
  · rintro ⟨⟨hcontested, henough⟩, ⟨haccess, hreachable, htasks⟩, hunguarded⟩
    simp only [Binding.isContested, Bool.and_eq_true, bne_iff_ne] at hcontested
    exact ⟨((m.mem_accessesOf_iff _ _ _).mp haccess).2.2, hcontested.1, hcontested.2,
      (m.isReachable_iff _ _).mp hreachable, (m.sharingTasks_ne_nil_iff _ _).mp htasks, hunguarded,
      henough⟩
  · rintro ⟨hbinding, hmutable, hatomic, hreachable, hshared, hunguarded, henough⟩
    refine ⟨⟨by simp [Binding.isContested, hmutable, hatomic], henough⟩, ⟨?_, ?_, ?_⟩, hunguarded⟩
    · exact (m.mem_accessesOf_iff _ _ _).mpr ⟨hmem.1, hmem.2, hbinding⟩
    · exact (m.isReachable_iff _ _).mpr hreachable
    · exact (m.sharingTasks_ne_nil_iff _ _).mpr hshared

/-- The candidates for one binding, each with the position of the function and of the access. -/
def reportsForAt (m : Model) (minTasks : Number) (b : Binding) : List ((Nat × Nat) × Candidate) :=
  let tasks := Text.sorted ((sharingTasks (sharedSites m m.taskReach b.name)).map (·.name))
  (m.accessesAt.filter fun x => isReported m minTasks b x.2).map fun x =>
    (x.1, finding m b tasks x.2.1 x.2.2)

/-- The candidates, each with the positions of the binding, the function and the access. -/
def reportsAt (m : Model) (minTasks : Number) : List ((Nat × Nat × Nat) × Candidate) :=
  m.bindings.zipIdx.flatMap fun (b, j) =>
    (reportsForAt m minTasks b).map fun x => ((j, x.1), x.2)

variable (m : Model) (minTasks : Number)

theorem map_snd_reportsForAt (b : Binding) :
    (reportsForAt m minTasks b).map (·.2) = (reportsFor m minTasks b).map (·.2) := by
  rw [map_snd_reportsFor, ← m.map_snd_accessesAt, List.filter_map, List.map_map, reportsForAt,
    List.map_map]
  rfl

theorem map_snd_reportsAt : (reportsAt m minTasks).map (·.2) = (reports m minTasks).map (·.2) := by
  rw [reports, List.map_flatMap, ← flatMap_zipIdx_fst, reportsAt, List.map_flatMap]
  refine List.flatMap_congr fun x _ => ?_
  rw [← map_snd_reportsForAt, List.map_map]
  rfl

/-- For one binding no access is reported twice. -/
theorem reportsForAt_nodup (b : Binding) : ((reportsForAt m minTasks b).map (·.1)).Nodup := by
  rw [reportsForAt, List.map_map]
  exact m.accessesAt_nodup.sublist (List.filter_sublist.map _)

theorem mem_reportsForAt_iff (b : Binding) (k i : Nat) (c : Candidate) :
    ((k, i), c) ∈ reportsForAt m minTasks b ↔ ∃ f a, m.functions[k]? = some f
      ∧ f.accesses[i]? = some a ∧ Reported m minTasks b f a
      ∧ c = finding m b
        (Text.sorted ((sharingTasks (sharedSites m m.taskReach b.name)).map (·.name))) f a := by
  have hiff : ∀ {k i f a}, ((k, i), f, a) ∈ m.accessesAt →
      (isReported m minTasks b (f, a) = true ↔ Reported m minTasks b f a) := by
    intro k i f a hmem
    refine isReported_iff_reported minTasks b ?_
    rw [← m.map_snd_accessesAt]
    exact List.mem_map_of_mem hmem
  simp only [reportsForAt, List.mem_map, List.mem_filter]
  constructor
  · rintro ⟨⟨⟨k', i'⟩, f, a⟩, ⟨hmem, hreported⟩, heq⟩
    simp only [Prod.mk.injEq] at heq
    obtain ⟨⟨rfl, rfl⟩, rfl⟩ := heq
    obtain ⟨hf, ha⟩ := (m.mem_accessesAt_iff _ _ f a).mp hmem
    exact ⟨f, a, hf, ha, (hiff hmem).mp hreported, rfl⟩
  · rintro ⟨f, a, hf, ha, hreported, rfl⟩
    have hmem := (m.mem_accessesAt_iff k i f a).mpr ⟨hf, ha⟩
    exact ⟨((k, i), f, a), ⟨hmem, (hiff hmem).mpr hreported⟩, rfl⟩

theorem mem_reportsAt_iff (j k i : Nat) (c : Candidate) :
    ((j, k, i), c) ∈ reportsAt m minTasks ↔
      ∃ b, m.bindings[j]? = some b ∧ ((k, i), c) ∈ reportsForAt m minTasks b := by
  simp only [reportsAt, List.mem_flatMap, List.mem_map]
  constructor
  · rintro ⟨⟨b, j'⟩, hb, ⟨site, c'⟩, hreport, heq⟩
    simp only [Prod.mk.injEq] at heq
    obtain ⟨⟨rfl, rfl⟩, rfl⟩ := heq
    exact ⟨b, List.mem_zipIdx_iff_getElem?.mp hb, hreport⟩
  · rintro ⟨b, hb, hreport⟩
    exact ⟨(b, j), List.mem_zipIdx_iff_getElem?.mpr hb, ((k, i), c), hreport, rfl⟩

/-- No access is reported twice for a declaration. -/
theorem reportsAt_nodup : ((reportsAt m minTasks).map (·.1)).Nodup := by
  simp only [reportsAt, List.map_flatMap, List.map_map]
  refine nodup_flatMap_of_mark (·.2) (·.1) (List.nodup_zipIdx_map_snd m.bindings) ?_ ?_
  · rintro ⟨b, j⟩ _ site hsite
    obtain ⟨_, _, rfl⟩ := List.mem_map.mp hsite
    rfl
  · rintro ⟨b, j⟩ _
    have hsites := (reportsForAt_nodup m minTasks b).map
      (f := fun site => (j, site)) fun x y hxy => by simpa using hxy
    rwa [List.map_map] at hsites

theorem Reported.contested {m : Model} {minTasks : Number} {b : Binding} {f : Function}
    {a : Access} (h : Reported m minTasks b f a) : b.isContested = true := by
  simp [Binding.isContested, h.mutable, h.notAtomic]

/-- No access is reported twice, if no two declarations that are looked at have the same name. -/
theorem reportsAt_sites_nodup (h : m.DistinctContested) :
    ((reportsAt m minTasks).map (·.1.2)).Nodup := by
  have hsites : (reportsAt m minTasks).map (·.1.2)
      = m.bindings.flatMap fun b => (reportsForAt m minTasks b).map (·.1) := by
    rw [← flatMap_zipIdx_fst, reportsAt, List.map_flatMap]
    refine List.flatMap_congr fun x _ => ?_
    rw [List.map_map]
    rfl
  rw [hsites, List.nodup_flatMap]
  refine ⟨fun b _ => reportsForAt_nodup m minTasks b, ?_⟩
  rw [Model.DistinctContested, List.Nodup, List.pairwise_map, List.pairwise_filter] at h
  refine h.imp fun {b b'} hne site hsite hsite' => ?_
  obtain ⟨⟨⟨k, i⟩, c⟩, hreport, rfl⟩ := List.mem_map.mp hsite
  obtain ⟨⟨_, c'⟩, hreport', rfl⟩ := List.mem_map.mp hsite'
  obtain ⟨f, a, hf, ha, hreported, _⟩ := (mem_reportsForAt_iff m minTasks b k i c).mp hreport
  obtain ⟨f', a', hf', ha', hreported', _⟩ :=
    (mem_reportsForAt_iff m minTasks b' k i c').mp hreport'
  obtain rfl : f = f' := Option.some.inj (hf.symm.trans hf')
  obtain rfl : a = a' := Option.some.inj (ha.symm.trans ha')
  exact hne hreported.contested hreported'.contested
    (hreported.binding.symm.trans hreported'.binding)

/-- **An access is reported once for each declaration of its name that changes, and not
    atomically.** Which accesses that are is told for every unit, whether or not names repeat.
    Where no two such declarations have the same name no access is reported twice; where functions
    have different names control reaches the access in its own function; and where bindings have
    different names the binding of the declaration is the one that the access names. -/
theorem evaluate_once_per_declaration {m : Model} {s : RuleSettings} {t : Value}
    {minTasks : Number} (ht : s.threshold "min_tasks" = .ok t) (hmin : t.number? = some minTasks) :
    ∃ found : List ((Nat × Nat × Nat) × Candidate),
      rule.evaluate m s = .ok (found.map (·.2))
      ∧ (found.map (·.1)).Nodup
      ∧ (∀ j k i, (j, k, i) ∈ found.map (·.1) ↔ ∃ b f a, m.bindings[j]? = some b
        ∧ m.functions[k]? = some f ∧ f.accesses[i]? = some a ∧ Reported m minTasks b f a)
      ∧ (m.DistinctContested → (found.map (·.1.2)).Nodup)
      ∧ ∀ j k i c, ((j, k, i), c) ∈ found → ∃ b f a, m.bindings[j]? = some b
        ∧ m.functions[k]? = some f ∧ f.accesses[i]? = some a
        ∧ c.location = m.locate [a.location, f.location]
        ∧ c.extras.lookup "binding" = some (.text a.binding)
        ∧ (m.DistinctFunctions → f.graph.Reachable a.block)
        ∧ (m.DistinctBindings → m.binding? a.binding = some b ∧ b.mutable = true
          ∧ b.category ≠ .atomic) := by
  refine ⟨reportsAt m minTasks, ?_, reportsAt_nodup m minTasks, ?_,
    reportsAt_sites_nodup m minTasks, ?_⟩
  · rw [map_snd_reportsAt]
    exact evaluate_eq ht hmin
  · intro j k i
    rw [List.mem_map]
    constructor
    · rintro ⟨⟨_, c⟩, hreport, rfl⟩
      obtain ⟨b, hb, hreport⟩ := (mem_reportsAt_iff m minTasks j k i c).mp hreport
      obtain ⟨f, a, hf, ha, hreported, _⟩ := (mem_reportsForAt_iff m minTasks b k i c).mp hreport
      exact ⟨b, f, a, hb, hf, ha, hreported⟩
    · rintro ⟨b, f, a, hb, hf, ha, hreported⟩
      have hreport := (mem_reportsForAt_iff m minTasks b k i _).mpr ⟨f, a, hf, ha, hreported, rfl⟩
      exact ⟨_, (mem_reportsAt_iff m minTasks j k i _).mpr ⟨b, hb, hreport⟩, rfl⟩
  · intro j k i c hreport
    obtain ⟨b, hb, hreport⟩ := (mem_reportsAt_iff m minTasks j k i c).mp hreport
    obtain ⟨f, a, hf, ha, hreported, rfl⟩ := (mem_reportsForAt_iff m minTasks b k i c).mp hreport
    refine ⟨b, f, a, hb, hf, ha, rfl, ?_, fun hfunctions => ?_, fun hbindings => ?_⟩
    · rw [hreported.binding]
      rfl
    · obtain ⟨g, hg, hreachable⟩ := hreported.reachable
      rw [hfunctions.function?_name (List.mem_of_getElem? hf)] at hg
      exact Option.some.inj hg ▸ hreachable
    · rw [hreported.binding]
      exact ⟨hbindings.binding?_name (List.mem_of_getElem? hb), hreported.mutable,
        hreported.notAtomic⟩

/-- A unit with one access to a name that is declared twice. -/
def declaredTwice : Model where
  unit := "u"
  bindings := [{ name := "n" }, { name := "n", scope := "func:f" }]
  functions := [incrementing "f"]
  tasks := [{ name := "t", entry := "f", replicated := true }]

/-- The one access is reported for both declarations. -/
theorem evaluate_once_per_declaration_declaredTwice :
    ∃ found : List ((Nat × Nat × Nat) × Candidate),
      rule.evaluate declaredTwice info.defaults = .ok (found.map (·.2))
      ∧ (0, 0, 0) ∈ found.map (·.1) ∧ (1, 0, 0) ∈ found.map (·.1) := by
  obtain ⟨found, hrun, _, hsites, _⟩ := evaluate_once_per_declaration (m := declaredTwice)
    (s := info.defaults) rfl rfl
  have hreported : ∀ b ∈ declaredTwice.bindings,
      Reported declaredTwice (.int 2) b (incrementing "f") increment := by
    intro b hb
    simp only [declaredTwice, List.mem_cons, List.not_mem_nil, or_false] at hb
    rcases hb with rfl | rfl <;>
      exact ⟨rfl, rfl, by decide, ⟨incrementing "f", rfl, by decide +kernel⟩, by decide +kernel,
        rfl, by decide +kernel⟩
  exact ⟨found, hrun,
    (hsites 0 0 0).mpr ⟨_, _, _, rfl, rfl, rfl, hreported _ (by decide)⟩,
    (hsites 1 0 0).mpr ⟨_, _, _, rfl, rfl, rfl, hreported _ (by decide)⟩⟩

end UnguardedAccess

end Hazard
