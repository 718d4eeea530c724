import Hazard.FlowGraph.ExitPath
import Hazard.Proofs.Explore.Layers
import Hazard.Proofs.FlowGraph.Path
import Mathlib.Data.List.Forall2
import Mathlib.Data.List.Nodup

set_option autoImplicit false

/-! # The paths to the exits

Whatever start and whatever blocked blocks a front-end names, a path to an exit ends at a block of
the graph, and there are no more such paths than blocks.

Which paths there are is said by `FlowGraph.ExitPath`: a path ends at the first exit that it meets
and keeps away from the blocked blocks. The search goes through trails, and the trails that lead on
from one another are just the beginnings of these paths (`reached_iff`). Since a search finds what
is nearest first, the trail it finds to an exit is a shortest one (`shortest_of_mem_trails`), and a
shortest path has no loops. -/

namespace Hazard

@[simp] theorem Trail.getLast?_blocks (t : Trail) : t.blocks.getLast? = some t.last := by
  simp [blocks]

@[simp] theorem Trail.length_blocks (t : Trail) : t.blocks.length = t.before.length + 1 := by
  simp [blocks]

namespace FlowGraph

variable (g : FlowGraph)

theorem exists_block_of_contains {n : Int} (h : g.contains n = true) :
    ∃ b ∈ g.blocks, g.block? n = some b := by
  simp only [contains, Bool.and_eq_true, decide_eq_true_eq] at h
  have hlt : n.toNat < g.blocks.size := by
    have hsize : (n.toNat : Int) < g.size := by rw [Int.toNat_of_nonneg h.1]; exact h.2
    exact Int.ofNat_lt.mp hsize
  refine ⟨g.blocks[n.toNat], Array.getElem_mem hlt, ?_⟩
  rw [block?, if_pos h.1, Array.getElem?_eq_getElem hlt]

/-- A block is an exit when it says so, or when no edge leads on from it. -/
theorem isExit_iff (n : Int) :
    g.isExit n = true ↔ ∃ b, g.block? n = some b ∧ (b.exit ≠ none ∨ g.successors n = []) := by
  unfold isExit exitKind?
  cases g.block? n with
  | none => simp
  | some b =>
      cases hexit : b.exit with
      | some kind => simp [hexit]
      | none =>
          cases hsucc : g.successors n with
          | nil => simp [hexit]
          | cons => simp [hexit]

theorem mem_exitBlocks_iff (n : Int) : n ∈ g.exitBlocks ↔ g.isExit n = true := by
  unfold exitBlocks
  rw [List.mem_filter, mem_numbers_iff]
  refine ⟨And.right, fun h => ⟨?_, h⟩⟩
  obtain ⟨_, hb, _⟩ := (g.isExit_iff n).mp h
  exact g.contains_of_block? hb

theorem contains_of_mem_exitBlocks {n : Int} (h : n ∈ g.exitBlocks) : g.contains n = true :=
  (g.mem_numbers_iff n).mp (List.mem_filter.mp h).1

theorem exitBlocks_ascending : g.exitBlocks.Pairwise (· < ·) := g.numbers_ascending.filter _

/-- A path to an exit is not empty, and its last block is that exit. -/
theorem getLast?_of_mem_pathsToExits {start : Int} {blocked path : List Int}
    (h : path ∈ g.pathsToExits start blocked) : ∃ n ∈ g.exitBlocks, path.getLast? = some n := by
  obtain ⟨n, hn, hpath⟩ := List.mem_filterMap.mp h
  obtain ⟨t, ht, rfl⟩ := Option.map_eq_some_iff.mp hpath
  have hlast : t.last = n := by simpa using List.find?_some ht
  exact ⟨n, hn, by rw [Trail.getLast?_blocks, hlast]⟩

/-- There is no more than one path for each exit. -/
theorem length_pathsToExits_le (start : Int) (blocked : List Int) :
    (g.pathsToExits start blocked).length ≤ g.size :=
  calc (g.pathsToExits start blocked).length
      ≤ g.exitBlocks.length := List.length_filterMap_le _ _
    _ ≤ g.numbers.length := List.length_filter_le _ _
    _ = g.size := g.numbers_length

/-! ## What is searched for -/

/-- The list of blocks is a path from `start` that leaves the function at its last block `e`, does
    not pass through another exit before, and visits no blocked block. -/
structure ExitPath (start : Int) (blocked : List Int) (e : Int) (visited : List Int) : Prop where
  path : g.Path start e visited
  unblocked : ∀ n ∈ visited, n ∉ blocked
  exit : g.isExit e = true
  first : ∀ n ∈ visited.dropLast, g.isExit n = false

/-- A path to an exit that is not longer than any other to the same exit, and repeats no block. -/
structure ShortestExit (start : Int) (blocked : List Int) (e : Int) (visited : List Int) : Prop
    extends g.ExitPath start blocked e visited where
  nodup : visited.Nodup
  minimal : ∀ other, g.ExitPath start blocked e other → visited.length ≤ other.length

namespace ExitPath

variable {g} {start e : Int} {blocked path : List Int}

theorem mem_exitBlocks (h : g.ExitPath start blocked e path) : e ∈ g.exitBlocks :=
  (g.mem_exitBlocks_iff e).mpr h.exit

/-- The search begins where such a path does. -/
theorem starts (h : g.ExitPath start blocked e path) :
    g.contains start = true ∧ start ∉ blocked :=
  ⟨((Path.exists_iff start e).mp ⟨path, h.path⟩).1, h.unblocked start h.path.mem_start⟩

/-- With fewer blocked blocks there are no fewer paths. -/
theorem mono {fewer : List Int} (h : g.ExitPath start blocked e path) (hsub : fewer ⊆ blocked) :
    g.ExitPath start fewer e path :=
  { h with unblocked := fun n hn hblocked => h.unblocked n hn (hsub hblocked) }

/-- A path to an exit that is no longer than the others passes through no block twice, for else its
    loops could be left out. -/
theorem nodup_of_minimal (h : g.ExitPath start blocked e path)
    (hminimal : ∀ other, g.ExitPath start blocked e other → path.length ≤ other.length) :
    path.Nodup := by
  obtain ⟨simple, hsimple, hnodup, hsub⟩ := h.path.exists_simple
  have hbefore : simple.dropLast.Sublist path.dropLast := by
    rw [← hsimple.dropLast_append, ← h.path.dropLast_append] at hsub
    exact (List.append_sublist_append_right [e]).mp hsub
  have hexit : g.ExitPath start blocked e simple :=
    ⟨hsimple, fun n hn => h.unblocked n (hsub.subset hn), h.exit,
      fun n hn => h.first n (hbefore.subset hn)⟩
  have hsame : simple = path := hsub.eq_of_length_le (hminimal simple hexit)
  exact hsame ▸ hnodup

end ExitPath

/-- A path that comes to an exit without a blocked block has come to a first exit on its way. -/
theorem exists_exitPath {start e : Int} {blocked path : List Int} (h : g.Path start e path)
    (hunblocked : ∀ n ∈ path, n ∉ blocked) (hexit : g.isExit e = true) :
    ∃ first before after, g.ExitPath start blocked first before ∧ g.Path first e after := by
  have hlast : e ∈ path := by
    rw [← h.dropLast_append]
    simp
  obtain ⟨first, before, after, hbefore, hafter, hle, hfirst, hearlier⟩ :=
    h.exists_first (P := fun n => g.isExit n = true) ⟨e, hlast, hexit⟩
  refine ⟨first, before, after, ⟨hbefore, fun n hn => hunblocked n (hle.subset hn), hfirst, ?_⟩,
    hafter⟩
  intro n hn
  simpa using hearlier n hn

/-! ## Trails are paths -/

theorem mem_continuations_iff (blocked : List Int) (t t' : Trail) :
    t' ∈ g.continuations blocked t ↔ g.isExit t.last = false ∧
      ∃ n ∈ g.successors t.last, n ∉ blocked ∧ t' = t.extend n := by
  unfold continuations
  split
  · next hexit => simp [hexit]
  · next hexit =>
      simp only [hexit, List.mem_map, List.mem_filter, decide_eq_true_eq, and_assoc, true_and]
      refine exists_congr fun n => and_congr_right fun _ => and_congr_right fun _ => eq_comm

/-- What is reached from the trail of the start alone is a path without blocked blocks that has not
    passed through an exit. -/
theorem reached_iff {start : Int} {blocked : List Int} (hstart : g.contains start = true)
    (hblocked : start ∉ blocked) (t : Trail) :
    Relation.ReflTransGen (fun a b => b ∈ g.continuations blocked a) ⟨start, []⟩ t ↔
      g.Path start t.last t.blocks ∧ (∀ n ∈ t.blocks, n ∉ blocked) ∧
        ∀ n ∈ t.before, g.isExit n = false := by
  constructor
  · intro h
    induction h with
    | refl => exact ⟨Path.start hstart, by simpa [Trail.blocks] using hblocked, by simp⟩
    | @tail t t' _ hstep ih =>
        obtain ⟨hexit, n, edge, hn, rfl⟩ := (g.mem_continuations_iff blocked t t').mp hstep
        obtain ⟨hpath, hunblocked, hbefore⟩ := ih
        rw [Trail.blocks_extend]
        refine ⟨hpath.step edge, ?_, ?_⟩
        · intro m hm
          rcases List.mem_append.mp hm with hm | hm
          · exact hunblocked m hm
          · rwa [List.mem_singleton.mp hm]
        · intro m hm
          rcases List.mem_cons.mp hm with rfl | hm
          · exact hexit
          · exact hbefore m hm
  · rintro ⟨hpath, hunblocked, hbefore⟩
    obtain ⟨last, before⟩ := t
    -- The blocks before the last one are the path that the last step was added to.
    generalize hblocks : (Trail.mk last before).blocks = path at hpath hunblocked
    dsimp only at hpath hbefore
    induction hpath generalizing before with
    | start _ =>
        obtain rfl : before = [] := by simpa [Trail.blocks] using hblocks
        exact Relation.ReflTransGen.refl
    | @step b c path hpath edge ih =>
        have hreverse : before.reverse = path := by
          simpa [Trail.blocks] using hblocks
        have hsplit : before = b :: path.dropLast.reverse := by
          rw [← List.reverse_reverse before, hreverse, ← hpath.dropLast_append]
          simp
        subst hsplit
        have hprev : Trail.blocks ⟨b, path.dropLast.reverse⟩ = path := by
          simpa [Trail.blocks] using hpath.dropLast_append
        refine (ih path.dropLast.reverse ?_ hprev ?_).tail
          ((g.mem_continuations_iff blocked _ _).mpr ⟨?_, c, edge, ?_, rfl⟩)
        · intro n hn
          exact hbefore n (List.mem_cons_of_mem _ hn)
        · intro n hn
          exact hunblocked n (List.mem_append_left _ hn)
        · exact hbefore b List.mem_cons_self
        · exact hunblocked c (by simp)

section Trails

variable {g} {start : Int} {blocked : List Int}

/-! The search of trails is one among the blocks of the graph, and each step makes a trail longer by
one block. -/

theorem continuations_within (blocked : List Int) (t : Trail) (_ : t.last ∈ g.numbers) :
    ∀ t' ∈ g.continuations blocked t, t'.last ∈ g.numbers := by
  intro t' h
  obtain ⟨_, n, edge, _, rfl⟩ := (g.mem_continuations_iff blocked t t').mp h
  exact (g.mem_numbers_iff n).mpr (g.contains_of_mem_successors edge)

theorem start_within (hstart : g.contains start = true) :
    ∀ t ∈ [(⟨start, []⟩ : Trail)], t.last ∈ g.numbers := by
  simpa using (g.mem_numbers_iff start).mpr hstart

theorem length_before_of_continues (blocked : List Int) (t : Trail) :
    ∀ t' ∈ g.continuations blocked t, t'.before.length = t.before.length + 1 := by
  intro t' h
  obtain ⟨_, n, _, _, rfl⟩ := (g.mem_continuations_iff blocked t t').mp h
  rfl

/-- How a trail continues depends on its last block only. -/
theorem continuations_congr (blocked : List Int) (t t' : Trail) (hlast : t.last = t'.last) :
    ∀ u ∈ g.continuations blocked t, ∃ u' ∈ g.continuations blocked t', u'.last = u.last := by
  intro u hu
  obtain ⟨hexit, n, edge, hn, rfl⟩ := (g.mem_continuations_iff blocked t u).mp hu
  rw [hlast] at hexit edge
  exact ⟨t'.extend n, (g.mem_continuations_iff blocked t' _).mpr ⟨hexit, n, edge, hn, rfl⟩, rfl⟩

theorem trails_eq (hstart : g.contains start = true) (hblocked : start ∉ blocked) :
    g.trails start blocked
      = exploreFrom Trail.last (g.continuations blocked) g.size [⟨start, []⟩] := by
  simp [trails, hstart, hblocked]

theorem starts_of_mem_trails {t : Trail} (h : t ∈ g.trails start blocked) :
    g.contains start = true ∧ start ∉ blocked := by
  unfold trails at h
  split at h
  · next hguard => simpa using hguard
  · simp at h

/-- A trail that is found is a path without blocked blocks that has not passed through an exit. -/
theorem path_of_mem_trails {t : Trail} (h : t ∈ g.trails start blocked) :
    g.Path start t.last t.blocks ∧ (∀ n ∈ t.blocks, n ∉ blocked) ∧
      ∀ n ∈ t.before, g.isExit n = false := by
  obtain ⟨hstart, hblocked⟩ := starts_of_mem_trails h
  rw [trails_eq hstart hblocked] at h
  obtain ⟨r, hr, hreach⟩ := exploreFrom_sound _ _ _ _ _ h
  obtain rfl := List.mem_singleton.mp hr
  exact (g.reached_iff hstart hblocked t).mp hreach

theorem trails_eq_nil (h : ¬(g.contains start = true ∧ start ∉ blocked)) :
    g.trails start blocked = [] := by
  rw [List.eq_nil_iff_forall_not_mem]
  intro t ht
  exact h (starts_of_mem_trails ht)

theorem trails_nodup : ((g.trails start blocked).map Trail.last).Nodup := by
  by_cases hguard : g.contains start = true ∧ start ∉ blocked
  · rw [trails_eq hguard.1 hguard.2]
    exact exploreFrom_nodup (continuations_within blocked) (start_within hguard.1)
      (Nat.le_of_eq g.numbers_length)
  · simp [trails_eq_nil hguard]

/-- For every path to an exit, a trail to that exit is found that is not longer. -/
theorem exists_trail {e : Int} {path : List Int} (h : g.ExitPath start blocked e path) :
    ∃ t ∈ g.trails start blocked, t.last = e ∧ t.blocks.length ≤ path.length := by
  obtain ⟨hstart, hblocked⟩ := h.starts
  have hblocks : Trail.blocks ⟨e, path.dropLast.reverse⟩ = path := by
    simpa [Trail.blocks] using h.path.dropLast_append
  have hreach : Relation.ReflTransGen (fun a b => b ∈ g.continuations blocked a) ⟨start, []⟩
      ⟨e, path.dropLast.reverse⟩ := by
    refine (g.reached_iff hstart hblocked _).mpr ⟨?_, ?_, ?_⟩
    · rw [hblocks]
      exact h.path
    · rw [hblocks]
      exact h.unblocked
    · intro n hn
      exact h.first n (List.mem_reverse.mp hn)
  obtain ⟨t, ht, hlast, hle⟩ := exploreFrom_nearest (continuations_within blocked)
    (start_within hstart) (Nat.le_of_eq g.numbers_length) (length_before_of_continues blocked)
    (by simp) (continuations_congr blocked) List.mem_cons_self hreach
  rw [← trails_eq hstart hblocked] at ht
  refine ⟨t, ht, hlast, ?_⟩
  rw [← hblocks, Trail.length_blocks, Trail.length_blocks]
  exact Nat.succ_le_succ hle

/-- The trail that is found to an exit is a shortest path there. -/
theorem shortest_of_mem_trails {t : Trail} (ht : t ∈ g.trails start blocked)
    (hexit : g.isExit t.last = true) : g.ShortestExit start blocked t.last t.blocks := by
  obtain ⟨hpath, hunblocked, hbefore⟩ := path_of_mem_trails ht
  have h : g.ExitPath start blocked t.last t.blocks := by
    refine ⟨hpath, hunblocked, hexit, fun n hn => hbefore n ?_⟩
    simpa [Trail.blocks] using hn
  have hminimal : ∀ other, g.ExitPath start blocked t.last other →
      t.blocks.length ≤ other.length := by
    intro other hother
    obtain ⟨t', ht', hlast, hle⟩ := exists_trail hother
    -- There is only one trail to each block.
    obtain rfl : t' = t := List.inj_on_of_nodup_map trails_nodup ht' ht hlast
    exact hle
  exact ⟨h, h.nodup_of_minimal hminimal, hminimal⟩

end Trails

/-! ## What is found -/

/-- The path that is found to a block, if there is one. -/
def pathTo? (start : Int) (blocked : List Int) (e : Int) : Option (List Int) :=
  ((g.trails start blocked).find? (·.last = e)).map Trail.blocks

/-- The exits that a path is found to, ascending. -/
def foundExits (start : Int) (blocked : List Int) : List Int :=
  g.exitBlocks.filter fun e => (g.pathTo? start blocked e).isSome

theorem shortest_of_pathTo? {start e : Int} {blocked path : List Int} (he : e ∈ g.exitBlocks)
    (h : g.pathTo? start blocked e = some path) : g.ShortestExit start blocked e path := by
  obtain ⟨t, ht, rfl⟩ := Option.map_eq_some_iff.mp h
  obtain rfl : t.last = e := by simpa using List.find?_some ht
  exact shortest_of_mem_trails (List.mem_of_find?_eq_some ht) ((g.mem_exitBlocks_iff _).mp he)

theorem mem_foundExits_iff (start : Int) (blocked : List Int) (e : Int) :
    e ∈ g.foundExits start blocked ↔ ∃ path, g.ExitPath start blocked e path := by
  unfold foundExits
  rw [List.mem_filter]
  constructor
  · rintro ⟨he, hfound⟩
    obtain ⟨path, hpath⟩ := Option.isSome_iff_exists.mp hfound
    exact ⟨path, (g.shortest_of_pathTo? he hpath).toExitPath⟩
  · rintro ⟨path, h⟩
    obtain ⟨t, ht, hlast, _⟩ := exists_trail h
    refine ⟨h.mem_exitBlocks, ?_⟩
    rw [pathTo?, Option.isSome_map, List.find?_isSome]
    exact ⟨t, ht, by simpa using hlast⟩

theorem foundExits_ascending (start : Int) (blocked : List Int) :
    (g.foundExits start blocked).Pairwise (· < ·) :=
  g.exitBlocks_ascending.filter _

/-- The paths belong to the exits that are found, one to each and in the same order. -/
theorem forall₂_pathsToExits {R : Int → List Int → Prop} {start : Int} {blocked : List Int}
    (hR : ∀ e ∈ g.exitBlocks, ∀ path, g.pathTo? start blocked e = some path → R e path) :
    List.Forall₂ R (g.foundExits start blocked) (g.pathsToExits start blocked) := by
  show List.Forall₂ R (g.exitBlocks.filter _) (g.exitBlocks.filterMap (g.pathTo? start blocked))
  generalize g.exitBlocks = exits at hR ⊢
  induction exits with
  | nil => exact List.Forall₂.nil
  | cons e rest ih =>
      have hrest := ih fun e' he' => hR e' (List.mem_cons_of_mem _ he')
      cases hfound : g.pathTo? start blocked e with
      | none => simpa [hfound] using hrest
      | some path =>
          rw [List.filter_cons_of_pos (by simp [hfound]), List.filterMap_cons_some hfound]
          exact List.Forall₂.cons (hR e List.mem_cons_self path hfound) hrest

/-- The last blocks of the paths are the exits that are found. -/
theorem filterMap_getLast?_pathsToExits (start : Int) (blocked : List Int) :
    (g.pathsToExits start blocked).filterMap List.getLast? = g.foundExits start blocked := by
  have hall : List.Forall₂ (fun e path => path.getLast? = some e)
      (g.foundExits start blocked) (g.pathsToExits start blocked) := by
    refine g.forall₂_pathsToExits fun e _ path hpath => ?_
    obtain ⟨t, ht, rfl⟩ := Option.map_eq_some_iff.mp hpath
    rw [Trail.getLast?_blocks]
    simpa using List.find?_some ht
  generalize g.foundExits start blocked = exits at hall ⊢
  generalize g.pathsToExits start blocked = paths at hall ⊢
  induction hall with
  | nil => rfl
  | cons hlast _ ih => rw [List.filterMap_cons_some hlast, ih]

/-- There is a path to show when some path without a blocked block leads to an exit. -/
theorem pathsToExits_ne_nil_iff (start : Int) (blocked : List Int) :
    g.pathsToExits start blocked ≠ [] ↔
      ∃ e path, g.Path start e path ∧ g.isExit e = true ∧ ∀ n ∈ path, n ∉ blocked := by
  have hlength := (g.forall₂_pathsToExits fun _ _ _ _ => trivial : List.Forall₂ (fun _ _ => True)
    (g.foundExits start blocked) (g.pathsToExits start blocked)).length_eq
  have hfound : g.pathsToExits start blocked ≠ [] ↔ ∃ e, e ∈ g.foundExits start blocked := by
    rw [← List.length_pos_iff, ← hlength, List.length_pos_iff_exists_mem]
  simp only [hfound, mem_foundExits_iff]
  constructor
  · rintro ⟨e, path, h⟩
    exact ⟨e, path, h.path, h.exit, h.unblocked⟩
  · rintro ⟨e, path, hpath, hexit, hunblocked⟩
    obtain ⟨first, before, _, hfirst, _⟩ := g.exists_exitPath hpath hunblocked hexit
    exact ⟨first, before, hfirst⟩

/-! ## Exits behind exits

A path ends at the first exit, but control can go on from an exit that has successors. So the exits
that are found are not all that can be reached, but all that are reached first. -/

theorem mem_reachableFrom_trans {a b c : Int} (hab : b ∈ g.reachableFrom a)
    (hbc : c ∈ g.reachableFrom b) : c ∈ g.reachableFrom a := by
  rw [mem_reachableFrom_iff, Path.exists_iff] at *
  exact ⟨hab.1, hab.2.trans hbc.2⟩

/-- Where an exit can be reached, one is found that it can be reached from. -/
theorem exists_foundExit {start e : Int} (hexit : e ∈ g.exitBlocks)
    (hreach : e ∈ g.reachableFrom start) :
    ∃ first ∈ g.foundExits start [], e ∈ g.reachableFrom first := by
  obtain ⟨path, hpath⟩ := (g.mem_reachableFrom_iff start e).mp hreach
  obtain ⟨first, before, after, hfirst, hafter⟩ :=
    g.exists_exitPath hpath (fun _ _ => List.not_mem_nil) ((g.mem_exitBlocks_iff e).mp hexit)
  exact ⟨first, (g.mem_foundExits_iff start [] first).mpr ⟨before, hfirst⟩,
    (g.mem_reachableFrom_iff first e).mpr ⟨after, hafter⟩⟩

theorem reachable_of_mem_foundExits {start e : Int} {blocked : List Int}
    (h : e ∈ g.foundExits start blocked) : e ∈ g.exitBlocks ∧ e ∈ g.reachableFrom start := by
  obtain ⟨path, hpath⟩ := (g.mem_foundExits_iff start blocked e).mp h
  exact ⟨hpath.mem_exitBlocks, (g.mem_reachableFrom_iff start e).mpr ⟨path, hpath.path⟩⟩

theorem eq_of_mem_reachableFrom {a b : Int} (ha : g.successors a = [])
    (h : b ∈ g.reachableFrom a) : b = a := by
  rw [mem_reachableFrom_iff, Path.exists_iff] at h
  rcases Relation.ReflTransGen.cases_head h.2 with hab | ⟨c, hc, _⟩
  · exact hab.symm
  · simp [ha] at hc

/-- **Exits found and exits reached.** With nothing blocked, the last blocks of the paths are the
    exits that some path leads to without another exit on the way. The exits that can be reached are
    these and those that can be reached from them; they are the same exits if control cannot go on
    from any that is found. -/
theorem lastBlocks_eq_firstExits (start : Int) :
    let lasts := (g.pathsToExits start []).filterMap List.getLast?
    (∀ e, e ∈ lasts ↔ e ∈ g.exitBlocks ∧
      ∃ path, g.Path start e path ∧ ∀ n ∈ path.dropLast, n ∉ g.exitBlocks) ∧
    (∀ e, e ∈ g.exitBlocks ∧ e ∈ g.reachableFrom start ↔
      e ∈ g.exitBlocks ∧ ∃ first ∈ lasts, e ∈ g.reachableFrom first) ∧
    ((∀ e ∈ lasts, g.successors e = []) →
      ∀ e, e ∈ lasts ↔ e ∈ g.exitBlocks ∧ e ∈ g.reachableFrom start) := by
  intro lasts
  have hlasts : lasts = g.foundExits start [] := g.filterMap_getLast?_pathsToExits start []
  rw [hlasts]
  refine ⟨?_, ?_, ?_⟩
  · intro e
    rw [mem_foundExits_iff]
    constructor
    · rintro ⟨path, hpath⟩
      refine ⟨hpath.mem_exitBlocks, path, hpath.path, fun n hn hexit => ?_⟩
      rw [mem_exitBlocks_iff, hpath.first n hn] at hexit
      cases hexit
    · rintro ⟨hexit, path, hpath, hfirst⟩
      refine ⟨path, hpath, by simp, (g.mem_exitBlocks_iff e).mp hexit, fun n hn => ?_⟩
      simpa [mem_exitBlocks_iff] using hfirst n hn
  · intro e
    refine and_congr_right fun hexit => ⟨g.exists_foundExit hexit, ?_⟩
    rintro ⟨first, hfirst, hreach⟩
    exact g.mem_reachableFrom_trans (g.reachable_of_mem_foundExits hfirst).2 hreach
  · intro hends e
    refine ⟨g.reachable_of_mem_foundExits, ?_⟩
    rintro ⟨hexit, hreach⟩
    obtain ⟨first, hfirst, hbehind⟩ := g.exists_foundExit hexit hreach
    rwa [g.eq_of_mem_reachableFrom (hends first hfirst) hbehind]

/-- A function that may return early, from block 0, and else returns from block 1, where the block
    of the early return is either split off or not. -/
def earlyReturn (split : Bool) : FlowGraph where
  blocks :=
    if split then #[{ number := 0, successors := [1, 2] }, { number := 1, exit := some .returning },
      { number := 2, exit := some .returning }]
    else #[{ number := 0, successors := [1], exit := some .returning },
      { number := 1, exit := some .returning }]

/-- Split off, the early return is found together with the late one; else it hides it. -/
theorem lastBlocks_eq_firstExits_earlyReturn :
    (∀ e, e ∈ ((earlyReturn true).pathsToExits 0 []).filterMap List.getLast? ↔
      e ∈ (earlyReturn true).exitBlocks ∧ e ∈ (earlyReturn true).reachableFrom 0) ∧
    (1 : Int) ∈ (earlyReturn false).exitBlocks ∧ (1 : Int) ∈ (earlyReturn false).reachableFrom 0 ∧
    (1 : Int) ∉ ((earlyReturn false).pathsToExits 0 []).filterMap List.getLast? := by
  refine ⟨((earlyReturn true).lastBlocks_eq_firstExits 0).2.2 (by decide), by decide, by decide, ?_⟩
  -- The only path to block 1 begins at an exit.
  intro hlast
  obtain ⟨_, path, hpath, hfirst⟩ :=
    (((earlyReturn false).lastBlocks_eq_firstExits 0).1 1).mp hlast
  cases hpath with
  | @step b _ before hbefore edge =>
      rw [List.dropLast_concat] at hfirst
      exact hfirst 0 hbefore.mem_start (by decide)

end FlowGraph

end Hazard
