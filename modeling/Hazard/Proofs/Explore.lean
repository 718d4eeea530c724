import Hazard.Explore
import Mathlib.Logic.Relation

set_option autoImplicit false

/-! # Exploration finds what can be reached

A search is bounded by its `room`, and nothing in its text says that the room is enough. The theory
of this module says when it is: the keys of all items that can ever be queued lie in a list of
`places`, and the room is not smaller than that list. Then what the search returns

* has every key once (`exploreFrom_nodup`),
* holds every root and is closed under `next`, up to keys (`exploreFrom_roots`,
  `exploreFrom_closed`),
* and holds nothing that is not reached from a root (`exploreFrom_sound`).

Where an item is its own key the three add up to reachability, `mem_exploreFrom_iff`. Everything
rests on one invariant of the search, `Frontier`: one step keeps it (`Frontier.step`), and a run
that has enough room ends with nothing waiting (`Frontier.run`). Whatever else a step keeps holds at
the end of such a run as well (`exploreFrom_keeps`). -/

namespace Hazard

variable {α β : Type} [DecidableEq α]

/-! ## What `novel` keeps -/

/-- An item is left out only when its key has been met or is that of an earlier item. -/
theorem key_mem_or_mem_novel (key : β → α) (met : List α) (items : List β) (x : β)
    (h : x ∈ items) : key x ∈ met ∨ key x ∈ (novel key met items).map key := by
  induction items generalizing met with
  | nil => simp at h
  | cons item rest ih =>
      rw [novel]
      rcases List.mem_cons.mp h with rfl | hrest
      · by_cases hx : key x ∈ met
        · exact Or.inl hx
        · rw [if_neg hx]
          exact Or.inr (by simp)
      · by_cases hitem : key item ∈ met
        · rw [if_pos hitem]
          exact ih met hrest
        · rw [if_neg hitem, List.map_cons, List.mem_cons]
          rcases ih (key item :: met) hrest with hmet | hnew
          · rcases List.mem_cons.mp hmet with heq | hmet
            · exact Or.inr (Or.inl heq)
            · exact Or.inl hmet
          · exact Or.inr (Or.inr hnew)

theorem novel_keys_nodup (key : β → α) (met : List α) (items : List β) :
    ((novel key met items).map key).Nodup := by
  induction items generalizing met with
  | nil => simp [novel]
  | cons item rest ih =>
      rw [novel]
      split
      · exact ih met
      · rw [List.map_cons, List.nodup_cons]
        refine ⟨?_, ih (key item :: met)⟩
        intro hmem
        obtain ⟨x, hx, hkey⟩ := List.mem_map.mp hmem
        exact (mem_of_mem_novel hx).2 (hkey ▸ List.mem_cons_self)

/-- Of the items with the same key the first one is kept, unless the key has been met. -/
theorem mem_novel_iff (key : β → α) (met : List α) (items : List β) (x : β) :
    x ∈ novel key met items ↔
      key x ∉ met ∧ items.find? (fun item => key item = key x) = some x := by
  induction items generalizing met with
  | nil => simp [novel]
  | cons item rest ih =>
      rw [novel, List.find?_cons_eq_some]
      by_cases hitem : key item ∈ met
      · have hne : key x ∉ met → key item ≠ key x := fun hx heq => hx (heq ▸ hitem)
        rw [if_pos hitem, ih]
        refine and_congr_right fun hx => ?_
        simp [hne hx]
      · rw [if_neg hitem, List.mem_cons, ih]
        by_cases hkey : key item = key x
        · rw [hkey] at hitem
          simp [hkey, hitem, eq_comm]
        · have hne : x ≠ item := fun h => hkey (h ▸ rfl)
          simp [hkey, hne, Ne.symm hkey]

/-- Every key is kept. -/
theorem mem_keys_novel_iff (key : β → α) (items : List β) (k : α) :
    k ∈ (novel key [] items).map key ↔ k ∈ items.map key := by
  constructor
  · intro hk
    obtain ⟨x, hx, rfl⟩ := List.mem_map.mp hk
    exact List.mem_map_of_mem (mem_of_mem_novel hx).1
  · intro hk
    obtain ⟨x, hx, rfl⟩ := List.mem_map.mp hk
    rcases key_mem_or_mem_novel key [] items x hx with hmet | hkept
    · exact absurd hmet List.not_mem_nil
    · exact hkept

/-- Nothing is left out of items that have different keys, but for repetitions. -/
theorem mem_novel_iff_of_inj {key : β → α} {items : List β}
    (h : ∀ x ∈ items, ∀ y ∈ items, key x = key y → x = y) (x : β) :
    x ∈ novel key [] items ↔ x ∈ items := by
  constructor
  · intro hx
    exact (mem_of_mem_novel hx).1
  · intro hx
    have hkept := (mem_keys_novel_iff key items (key x)).mpr (List.mem_map_of_mem hx)
    obtain ⟨y, hy, hkey⟩ := List.mem_map.mp hkept
    rwa [← h y (mem_of_mem_novel hy).1 x hx hkey]

/-- Only which keys have been met matters, not in which order. -/
theorem novel_congr {key : β → α} {met met' : List α} (h : ∀ k, k ∈ met ↔ k ∈ met')
    (items : List β) : novel key met items = novel key met' items := by
  induction items generalizing met met' with
  | nil => rfl
  | cons item rest ih =>
      have hcons : ∀ k, k ∈ key item :: met ↔ k ∈ key item :: met' := by
        intro k
        rw [List.mem_cons, List.mem_cons, h]
      simp only [novel, h, ih h, ih hcons]

theorem novel_map {γ : Type} (key : β → α) (f : γ → β) (met : List α) (items : List γ) :
    novel key met (items.map f) = (novel (fun x => key (f x)) met items).map f := by
  induction items generalizing met with
  | nil => rfl
  | cons item rest ih =>
      rw [List.map_cons, novel, novel, ih, ih]
      split <;> rfl

/-! ## The invariant of a search -/

/-- The state of a search between two steps. The items of `done` have been explored, those of
    `waiting` are still to be, and `met` holds the keys of both, each of them a place and none of
    them twice. The successors of what has been explored have been met. -/
structure Frontier (key : β → α) (next : β → List β) (places : List α)
    (done waiting : List β) (met : List α) : Prop where
  keys : met = (done ++ waiting).map key
  nodup : met.Nodup
  within : met ⊆ places
  closed : ∀ x ∈ done, ∀ y ∈ next x, key y ∈ met

namespace Frontier

variable {key : β → α} {next : β → List β} {places : List α}

/-- Exploring one item keeps the invariant. -/
theorem step {done waiting : List β} {met : List α} {item : β}
    (hnext : ∀ x, key x ∈ places → ∀ y ∈ next x, key y ∈ places)
    (h : Frontier key next places done (item :: waiting) met) :
    Frontier key next places (done ++ [item]) (waiting ++ novel key met (next item))
      (met ++ (novel key met (next item)).map key) := by
  have hitem : key item ∈ places := h.within (by rw [h.keys]; simp)
  refine ⟨?_, ?_, ?_, ?_⟩
  · rw [h.keys]
    simp
  · rw [List.nodup_append]
    refine ⟨h.nodup, novel_keys_nodup key met (next item), ?_⟩
    intro a ha b hb hab
    obtain ⟨x, hx, rfl⟩ := List.mem_map.mp hb
    exact (mem_of_mem_novel hx).2 (hab ▸ ha)
  · intro k hk
    rcases List.mem_append.mp hk with hk | hk
    · exact h.within hk
    · obtain ⟨x, hx, rfl⟩ := List.mem_map.mp hk
      exact hnext item hitem x (mem_of_mem_novel hx).1
  · intro x hx y hy
    rw [List.mem_append]
    rcases List.mem_append.mp hx with hx | hx
    · exact Or.inl (h.closed x hx y hy)
    · obtain rfl := List.mem_singleton.mp hx
      exact key_mem_or_mem_novel key met (next x) y hy

omit [DecidableEq α] in
/-- The items discovered so far are no more than the places. -/
theorem length_le {done waiting : List β} {met : List α}
    (h : Frontier key next places done waiting met) :
    done.length + waiting.length ≤ places.length := by
  have hle : met.length ≤ places.length := List.Nodup.length_le_of_subset h.nodup h.within
  rw [h.keys, List.length_map, List.length_append] at hle
  exact hle

/-- A search with enough room ends with nothing waiting, and what every step keeps holds there. -/
theorem run_keeps {P : List β → List β → List α → Prop}
    (hnext : ∀ x, key x ∈ places → ∀ y ∈ next x, key y ∈ places)
    (hstep : ∀ done item waiting met, Frontier key next places done (item :: waiting) met →
      P done (item :: waiting) met → P (done ++ [item]) (waiting ++ novel key met (next item))
        (met ++ (novel key met (next item)).map key))
    (room : Nat) (done waiting : List β) (met : List α)
    (h : Frontier key next places done waiting met) (hP : P done waiting met)
    (hroom : places.length ≤ room + done.length) :
    ∃ found, Frontier key next places (done ++ explore key next room waiting met) [] found ∧
      P (done ++ explore key next room waiting met) [] found := by
  induction room generalizing done waiting met with
  | zero =>
      -- Everything that was ever queued has its own place, and the explored items fill them all.
      have hlen := h.length_le
      have hnil : waiting = [] := List.eq_nil_of_length_eq_zero (by omega)
      subst hnil
      exact ⟨met, by simpa [explore] using h, by simpa [explore] using hP⟩
  | succ room ih =>
      cases waiting with
      | nil => exact ⟨met, by simpa [explore] using h, by simpa [explore] using hP⟩
      | cons item waiting =>
          obtain ⟨found, hfound, hkept⟩ := ih _ _ _ (h.step hnext) (hstep _ _ _ _ h hP)
            (by rw [List.length_append, List.length_singleton]; omega)
          exact ⟨found, by simpa [explore] using hfound, by simpa [explore] using hkept⟩

/-- A search with enough room ends with everything explored and nothing waiting. -/
theorem run (hnext : ∀ x, key x ∈ places → ∀ y ∈ next x, key y ∈ places) (room : Nat)
    (done waiting : List β) (met : List α) (h : Frontier key next places done waiting met)
    (hroom : places.length ≤ room + done.length) :
    ∃ found, Frontier key next places (done ++ explore key next room waiting met) [] found ∧
      met ⊆ found :=
  run_keeps (P := fun _ _ found => met ⊆ found) hnext
    (fun _ _ _ _ _ hmet => List.Subset.trans hmet (List.subset_append_left _ _))
    room done waiting met h (List.Subset.refl met) hroom

/-- A search starts with its roots waiting, each key once. -/
theorem start (next : β → List β) {roots : List β} (hroots : ∀ r ∈ roots, key r ∈ places) :
    Frontier key next places [] (novel key [] roots) ((novel key [] roots).map key) := by
  refine ⟨by simp, novel_keys_nodup key [] roots, ?_, by simp⟩
  intro k hk
  obtain ⟨x, hx, rfl⟩ := List.mem_map.mp hk
  exact hroots x (mem_of_mem_novel hx).1

end Frontier

/-! ## Searches side by side -/

/-- A search is carried along by a function that keeps the keys and the successors. -/
theorem explore_map {γ : Type} {key : β → α} {next : β → List β} {key' : γ → α}
    {next' : γ → List γ} {f : β → γ} (hkey : ∀ x, key' (f x) = key x)
    (hnext : ∀ x, next' (f x) = (next x).map f) (room : Nat) (waiting : List β) (met : List α) :
    explore key' next' room (waiting.map f) met = (explore key next room waiting met).map f := by
  have hkeys : (fun x => key' (f x)) = key := funext hkey
  induction room generalizing waiting met with
  | zero => rfl
  | succ room ih =>
      cases waiting with
      | nil => rfl
      | cons item waiting =>
          have hfresh : novel key' met (next' (f item)) = (novel key met (next item)).map f := by
            rw [hnext, novel_map, hkeys]
          rw [List.map_cons, explore, explore, List.map_cons, ← ih, hfresh, List.map_append,
            List.map_map]
          exact congrArg (fun keys => f item :: explore key' next' room _ (met ++ keys))
            (List.map_congr_left fun x _ => hkey x)

theorem exploreFrom_map {γ : Type} {key : β → α} {next : β → List β} {key' : γ → α}
    {next' : γ → List γ} {f : β → γ} (hkey : ∀ x, key' (f x) = key x)
    (hnext : ∀ x, next' (f x) = (next x).map f) (room : Nat) (roots : List β) :
    exploreFrom key' next' room (roots.map f) = (exploreFrom key next room roots).map f := by
  have hkeys : (fun x => key' (f x)) = key := funext hkey
  have hmet : ((novel key [] roots).map f).map key' = (novel key [] roots).map key := by
    rw [List.map_map]
    exact List.map_congr_left fun x _ => hkey x
  rw [exploreFrom, exploreFrom, novel_map, hkeys, hmet, explore_map hkey hnext]

/-! ## What a search returns -/

/-- Whatever is explored is reached from what was waiting. -/
theorem explore_sound (key : β → α) (next : β → List β) (room : Nat) (waiting : List β)
    (met : List α) (x : β) (h : x ∈ explore key next room waiting met) :
    ∃ r ∈ waiting, Relation.ReflTransGen (fun a b => b ∈ next a) r x := by
  induction room generalizing waiting met with
  | zero => simp [explore] at h
  | succ room ih =>
      cases waiting with
      | nil => simp [explore] at h
      | cons item waiting =>
          simp only [explore, List.mem_cons] at h
          rcases h with rfl | h
          · exact ⟨x, List.mem_cons_self, Relation.ReflTransGen.refl⟩
          · obtain ⟨r, hr, hreach⟩ := ih _ _ h
            rcases List.mem_append.mp hr with hr | hr
            · exact ⟨r, List.mem_cons_of_mem _ hr, hreach⟩
            · have hedge : r ∈ next item := (mem_of_mem_novel hr).1
              exact ⟨item, List.mem_cons_self, Relation.ReflTransGen.head hedge hreach⟩

theorem exploreFrom_sound (key : β → α) (next : β → List β) (room : Nat) (roots : List β) (x : β)
    (h : x ∈ exploreFrom key next room roots) :
    ∃ r ∈ roots, Relation.ReflTransGen (fun a b => b ∈ next a) r x := by
  obtain ⟨r, hr, hreach⟩ := explore_sound key next room _ _ x h
  exact ⟨r, (mem_of_mem_novel hr).1, hreach⟩

section Room

variable {key : β → α} {next : β → List β} {places : List α} {room : Nat} {roots : List β}

/-- With enough room, everything that the search returns has been explored in full. -/
theorem exploreFrom_frontier (hnext : ∀ x, key x ∈ places → ∀ y ∈ next x, key y ∈ places)
    (hroots : ∀ r ∈ roots, key r ∈ places) (hroom : places.length ≤ room) :
    ∃ found, Frontier key next places (exploreFrom key next room roots) [] found ∧
      ∀ r ∈ roots, key r ∈ found := by
  obtain ⟨found, hfound, hmet⟩ :=
    Frontier.run hnext room [] _ _ (Frontier.start next hroots) (by simpa using hroom)
  refine ⟨found, by simpa [exploreFrom] using hfound, ?_⟩
  intro r hr
  rcases key_mem_or_mem_novel key [] roots r hr with h | h
  · simp at h
  · exact hmet h

/-- What holds at the start of a search and is kept by every step holds of what it returns. -/
theorem exploreFrom_keeps {P : List β → List β → List α → Prop}
    (hnext : ∀ x, key x ∈ places → ∀ y ∈ next x, key y ∈ places)
    (hroots : ∀ r ∈ roots, key r ∈ places) (hroom : places.length ≤ room)
    (hstep : ∀ done item waiting met, Frontier key next places done (item :: waiting) met →
      P done (item :: waiting) met → P (done ++ [item]) (waiting ++ novel key met (next item))
        (met ++ (novel key met (next item)).map key))
    (hstart : P [] (novel key [] roots) ((novel key [] roots).map key)) :
    ∃ found, P (exploreFrom key next room roots) [] found := by
  obtain ⟨found, _, hkept⟩ := Frontier.run_keeps hnext hstep room [] _ _
    (Frontier.start next hroots) hstart (by simpa using hroom)
  exact ⟨found, by simpa [exploreFrom] using hkept⟩

theorem exploreFrom_nodup (hnext : ∀ x, key x ∈ places → ∀ y ∈ next x, key y ∈ places)
    (hroots : ∀ r ∈ roots, key r ∈ places) (hroom : places.length ≤ room) :
    ((exploreFrom key next room roots).map key).Nodup := by
  obtain ⟨found, hfound, _⟩ := exploreFrom_frontier hnext hroots hroom
  have hkeys := hfound.keys
  rw [List.append_nil] at hkeys
  exact hkeys ▸ hfound.nodup

theorem exploreFrom_roots (hnext : ∀ x, key x ∈ places → ∀ y ∈ next x, key y ∈ places)
    (hroots : ∀ r ∈ roots, key r ∈ places) (hroom : places.length ≤ room) (r : β)
    (hr : r ∈ roots) : key r ∈ (exploreFrom key next room roots).map key := by
  obtain ⟨found, hfound, hmet⟩ := exploreFrom_frontier hnext hroots hroom
  have hkeys := hfound.keys
  rw [List.append_nil] at hkeys
  exact hkeys ▸ hmet r hr

theorem exploreFrom_closed (hnext : ∀ x, key x ∈ places → ∀ y ∈ next x, key y ∈ places)
    (hroots : ∀ r ∈ roots, key r ∈ places) (hroom : places.length ≤ room) (x : β)
    (hx : x ∈ exploreFrom key next room roots) (y : β) (hy : y ∈ next x) :
    key y ∈ (exploreFrom key next room roots).map key := by
  obtain ⟨found, hfound, _⟩ := exploreFrom_frontier hnext hroots hroom
  have hkeys := hfound.keys
  rw [List.append_nil] at hkeys
  exact hkeys ▸ hfound.closed x hx y hy

end Room

/-- A search among places finds exactly what can be reached from the roots. -/
theorem mem_exploreFrom_iff {next : α → List α} {places : List α} {room : Nat} {roots : List α}
    (hnext : ∀ x ∈ places, ∀ y ∈ next x, y ∈ places) (hroots : ∀ r ∈ roots, r ∈ places)
    (hroom : places.length ≤ room) (x : α) :
    x ∈ exploreFrom id next room roots ↔
      ∃ r ∈ roots, Relation.ReflTransGen (fun a b => b ∈ next a) r x := by
  constructor
  · exact exploreFrom_sound id next room roots x
  · rintro ⟨r, hr, hreach⟩
    induction hreach with
    | refl =>
        have hfound : id r ∈ (exploreFrom id next room roots).map id :=
          exploreFrom_roots hnext hroots hroom r hr
        rwa [List.map_id] at hfound
    | @tail a b _ hedge ih =>
        have hfound : id b ∈ (exploreFrom id next room roots).map id :=
          exploreFrom_closed hnext hroots hroom a ih b hedge
        rwa [List.map_id] at hfound

end Hazard
