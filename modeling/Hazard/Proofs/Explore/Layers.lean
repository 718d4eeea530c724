import Hazard.Proofs.Explore

set_option autoImplicit false

/-! # Exploration goes by depth

Where every item is one step deeper than the item it was found from, a search explores its items in
layers: all items of one depth come before the next depth begins. Only the first item is kept for
each key, so the item that is kept is as near to the roots as any other with that key, provided
that items with the same key lead to the same keys (`exploreFrom_nearest`).

The argument is an invariant of the waiting items. They are in order of their depth and span no more
than two layers, so that what has been met before a step is never deeper than what the step finds
(`Layered.depth_le`). -/

namespace Hazard

variable {α β : Type} [DecidableEq α]

/-- Among the items there is one at the place of `y` that is not deeper than `y`. -/
def NearAmong (key : β → α) (depth : β → Nat) (items : List β) (y : β) : Prop :=
  ∃ x ∈ items, key x = key y ∧ depth x ≤ depth y

omit [DecidableEq α] in
theorem NearAmong.mono {key : β → α} {depth : β → Nat} {items more : List β} {y : β}
    (h : NearAmong key depth items y) (hsub : items ⊆ more) : NearAmong key depth more y := by
  obtain ⟨x, hx, hnear⟩ := h
  exact ⟨x, hsub hx, hnear⟩

/-- The explored and the waiting items of a search lie in layers. All are in order of their depth,
    those that wait span two layers at most, and nothing that has been come to lies deeper than it
    has to. -/
structure Layered (key : β → α) (next : β → List β) (depth : β → Nat) (roots : List β)
    (done waiting : List β) : Prop where
  ordered : (done ++ waiting).Pairwise fun x y => depth x ≤ depth y
  spread : ∀ x ∈ waiting, ∀ y ∈ waiting, depth y ≤ depth x + 1
  roots : ∀ r ∈ roots, NearAmong key depth (done ++ waiting) r
  near : ∀ x ∈ done, ∀ y ∈ next x, NearAmong key depth (done ++ waiting) y

namespace Layered

variable {key : β → α} {next : β → List β} {depth : β → Nat} {roots done waiting : List β}
  {item : β}

omit [DecidableEq α] in
/-- What has been met is at most one layer below the item whose turn it is. -/
theorem depth_le (h : Layered key next depth roots done (item :: waiting)) {x : β}
    (hx : x ∈ done ++ item :: waiting) : depth x ≤ depth item + 1 := by
  rcases List.mem_append.mp hx with hdone | hwaiting
  · have hle := (List.pairwise_append.mp h.ordered).2.2 x hdone item List.mem_cons_self
    omega
  · exact h.spread item List.mem_cons_self x hwaiting

omit [DecidableEq α] in
/-- No item that waits is above the item whose turn it is. -/
theorem le_depth (h : Layered key next depth roots done (item :: waiting)) {x : β}
    (hx : x ∈ waiting) : depth item ≤ depth x :=
  List.rel_of_pairwise_cons (List.pairwise_append.mp h.ordered).2.1 hx

/-- Exploring one item keeps the layers. -/
theorem step (hdepth : ∀ x, ∀ y ∈ next x, depth y = depth x + 1) {met : List α}
    (hmet : met = (done ++ item :: waiting).map key)
    (h : Layered key next depth roots done (item :: waiting)) :
    Layered key next depth roots (done ++ [item]) (waiting ++ novel key met (next item)) := by
  have hfresh : ∀ x ∈ novel key met (next item), depth x = depth item + 1 := fun x hx =>
    hdepth item x (mem_of_mem_novel hx).1
  have hall : done ++ [item] ++ (waiting ++ novel key met (next item))
      = (done ++ item :: waiting) ++ novel key met (next item) := by simp
  refine ⟨?_, ?_, ?_, ?_⟩
  · rw [hall, List.pairwise_append]
    refine ⟨h.ordered, List.pairwise_of_forall_mem_list ?_, ?_⟩
    · intro x hx y hy
      exact Nat.le_of_eq ((hfresh x hx).trans (hfresh y hy).symm)
    · intro x hx y hy
      rw [hfresh y hy]
      exact h.depth_le hx
  · intro x hx y hy
    have hlow : depth item ≤ depth x := by
      rcases List.mem_append.mp hx with hx | hx
      · exact h.le_depth hx
      · rw [hfresh x hx]
        omega
    have hhigh : depth y ≤ depth item + 1 := by
      rcases List.mem_append.mp hy with hy | hy
      · exact h.spread item List.mem_cons_self y (List.mem_cons_of_mem _ hy)
      · exact Nat.le_of_eq (hfresh y hy)
    omega
  · intro r hr
    rw [hall]
    exact (h.roots r hr).mono (List.subset_append_left _ _)
  · intro x hx y hy
    rw [hall]
    rcases List.mem_append.mp hx with hx | hx
    · exact (h.near x hx y hy).mono (List.subset_append_left _ _)
    · obtain rfl := List.mem_singleton.mp hx
      -- What is at the place of `y` was met before, or is found together with it.
      rcases key_mem_or_mem_novel key met (next x) y hy with hold | hnew
      · rw [hmet] at hold
        obtain ⟨z, hz, hkey⟩ := List.mem_map.mp hold
        refine ⟨z, List.mem_append_left _ hz, hkey, ?_⟩
        rw [hdepth x y hy]
        exact h.depth_le hz
      · obtain ⟨z, hz, hkey⟩ := List.mem_map.mp hnew
        refine ⟨z, List.mem_append_right _ hz, hkey, ?_⟩
        exact Nat.le_of_eq ((hfresh z hz).trans (hdepth x y hy).symm)

end Layered

section Room

variable {key : β → α} {next : β → List β} {places : List α} {room : Nat} {roots : List β}
  {depth : β → Nat}

/-- A search from roots of one depth returns its items in layers. -/
theorem exploreFrom_layered (hnext : ∀ x, key x ∈ places → ∀ y ∈ next x, key y ∈ places)
    (hroots : ∀ r ∈ roots, key r ∈ places) (hroom : places.length ≤ room)
    (hdepth : ∀ x, ∀ y ∈ next x, depth y = depth x + 1)
    (hlevel : ∀ r ∈ roots, ∀ s ∈ roots, depth r = depth s) :
    Layered key next depth roots (exploreFrom key next room roots) [] := by
  have hstart : Layered key next depth roots [] (novel key [] roots) := by
    have hmem : ∀ x ∈ novel key [] roots, x ∈ roots := fun x hx => (mem_of_mem_novel hx).1
    refine ⟨?_, ?_, ?_, by simp⟩
    · refine List.pairwise_of_forall_mem_list fun x hx y hy => ?_
      exact Nat.le_of_eq (hlevel x (hmem x hx) y (hmem y hy))
    · intro x hx y hy
      rw [hlevel y (hmem y hy) x (hmem x hx)]
      omega
    · intro r hr
      obtain ⟨x, hx, hkey⟩ := List.mem_map.mp
        ((mem_keys_novel_iff key roots (key r)).mpr (List.mem_map_of_mem hr))
      exact ⟨x, hx, hkey, Nat.le_of_eq (hlevel x (hmem x hx) r hr)⟩
  obtain ⟨_, hend⟩ := exploreFrom_keeps
    (P := fun done waiting _ => Layered key next depth roots done waiting) hnext hroots hroom
    (fun _ _ _ _ hfrontier h => h.step hdepth hfrontier.keys) hstart
  exact hend

/-- A search finds, at the place of whatever can be reached from the roots, an item that is not
    deeper. -/
theorem exploreFrom_nearest (hnext : ∀ x, key x ∈ places → ∀ y ∈ next x, key y ∈ places)
    (hroots : ∀ r ∈ roots, key r ∈ places) (hroom : places.length ≤ room)
    (hdepth : ∀ x, ∀ y ∈ next x, depth y = depth x + 1)
    (hlevel : ∀ r ∈ roots, ∀ s ∈ roots, depth r = depth s)
    (hkey : ∀ x x', key x = key x' → ∀ y ∈ next x, ∃ y' ∈ next x', key y' = key y)
    {r x : β} (hr : r ∈ roots) (hreach : Relation.ReflTransGen (fun a b => b ∈ next a) r x) :
    NearAmong key depth (exploreFrom key next room roots) x := by
  have hlayered := exploreFrom_layered hnext hroots hroom hdepth hlevel
  induction hreach with
  | refl => simpa using hlayered.roots r hr
  | @tail a b _ hb ih =>
      -- The item found at the place of `a` leads on to the place of `b`, and is no deeper than `a`.
      obtain ⟨a', ha', hkeya, hle⟩ := ih
      obtain ⟨b', hb', hkeyb⟩ := hkey a a' hkeya.symm b hb
      have hnear := hlayered.near a' ha' b' hb'
      rw [List.append_nil] at hnear
      obtain ⟨z, hz, hkeyz, hdepthz⟩ := hnear
      refine ⟨z, hz, hkeyz.trans hkeyb, ?_⟩
      rw [hdepth a b hb]
      rw [hdepth a' b' hb'] at hdepthz
      omega

end Room

end Hazard
