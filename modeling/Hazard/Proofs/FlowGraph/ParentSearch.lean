import Hazard.Proofs.FlowGraph.ExitPath
import Mathlib.Data.List.Sort
import Mathlib.Logic.Function.Iterate

set_option autoImplicit false

/-! # Walking back from the exits

The classical search for shortest paths does not carry whole paths along. It remembers for every
block the one it was discovered from, and when nothing is left to explore, it walks back from each
exit along these parents. `FlowGraph.pathsToExits` is that search: its trails are what the walks
give (`Tracks`), turn by turn. So the search comes to an end, every walk back to the start does, and
the paths are the shortest ones there are (`pathsToExits_eq_shortest`). -/

namespace Hazard

/-- A search in progress: the blocks discovered so far, each with the one it was discovered from,
    those that are still to be explored, and the exits met, in the order of discovery. -/
structure ParentSearch where
  parents : List (Int × Option Int) := []
  waiting : List Int := []
  exits : List Int := []

namespace ParentSearch

/-- Queues a block, unless it has been discovered before or is blocked. -/
def discover (blocked : List Int) (parent : Int) (s : ParentSearch) (n : Int) : ParentSearch :=
  if n ∈ s.parents.map Prod.fst ∨ n ∈ blocked then s
  else { s with parents := s.parents ++ [(n, some parent)], waiting := s.waiting ++ [n] }

/-- The walk from a block back along the parents comes to an end, and visits these blocks, which are
    written from the end of the walk to its beginning. -/
inductive Walk (parents : List (Int × Option Int)) : Int → List Int → Prop where
  | root {n : Int} (h : parents.lookup n = some none) : Walk parents n [n]
  | up {n p : Int} {path : List Int} (h : parents.lookup n = some (some p))
      (rest : Walk parents p path) : Walk parents n (path ++ [n])

/-- Discovering more blocks changes no walk. -/
theorem Walk.append {parents : List (Int × Option Int)} {n : Int} {path : List Int}
    (h : Walk parents n path) (more : List (Int × Option Int)) : Walk (parents ++ more) n path := by
  induction h with
  | root h => exact Walk.root (by rw [List.lookup_append, h, Option.some_or])
  | up h _ ih => exact Walk.up (by rw [List.lookup_append, h, Option.some_or]) ih

/-- The blocks that a series of discoveries adds. -/
theorem foldl_discover (blocked : List Int) (parent : Int) (s : ParentSearch) (found : List Int) :
    let fresh := novel id (s.parents.map Prod.fst) (found.filter (· ∉ blocked))
    found.foldl (discover blocked parent) s
      = { s with
          parents := s.parents ++ fresh.map fun n => (n, some parent)
          waiting := s.waiting ++ fresh } := by
  induction found generalizing s with
  | nil => simp [novel]
  | cons n rest ih =>
      rw [List.foldl_cons, ih]
      by_cases hblocked : n ∈ blocked
      · simp [discover, hblocked]
      · rw [List.filter_cons_of_pos (by simpa using hblocked), novel]
        by_cases hn : n ∈ s.parents.map Prod.fst
        · rw [if_pos (by exact hn), discover, if_pos (Or.inl hn)]
        · have hmet : ∀ k, k ∈ (s.parents ++ [(n, some parent)]).map Prod.fst ↔
              k ∈ id n :: s.parents.map Prod.fst := by
            intro k
            simp [or_comm]
          rw [if_neg (by exact hn), discover, if_neg (by simp [hn, hblocked])]
          dsimp only
          rw [novel_congr hmet]
          simp

end ParentSearch

namespace FlowGraph

variable (g : FlowGraph)

/-- The search before its first turn. From a start that is no block or is blocked there is nothing
    to explore. -/
def startSearch (start : Int) (blocked : List Int) : ParentSearch :=
  if g.contains start && start ∉ blocked then { parents := [(start, none)], waiting := [start] }
  else {}

/-- One turn of the search. The first waiting block is an exit, and noted as such, or what follows
    it is discovered. -/
def searchTurn (blocked : List Int) (s : ParentSearch) : ParentSearch :=
  match s.waiting with
  | [] => s
  | n :: rest =>
    if g.isExit n then { s with waiting := rest, exits := s.exits ++ [n] }
    else (g.successors n).foldl (ParentSearch.discover blocked n) { s with waiting := rest }

/-! ## Trails and parents -/

/-- The search along the parents is where the search of trails is: it has discovered and explored
    the last blocks of the trails, and walking back from them gives the trails. -/
structure Tracks (s : ParentSearch) (done waiting : List Trail) (met : List Int) : Prop where
  discovered : s.parents.map Prod.fst = met
  waits : s.waiting = waiting.map Trail.last
  exits : s.exits = (done.map Trail.last).filter g.isExit
  walks : ∀ t ∈ done ++ waiting, ParentSearch.Walk s.parents t.last t.blocks

namespace Tracks

variable {g} {s : ParentSearch} {done waiting : List Trail} {met blocked : List Int} {item : Trail}

/-- At an exit nothing is discovered. -/
theorem step_exit (h : g.Tracks s done (item :: waiting) met) (hexit : g.isExit item.last = true) :
    g.Tracks (g.searchTurn blocked s) (done ++ [item]) waiting met := by
  have hturn : g.searchTurn blocked s
      = { s with waiting := waiting.map Trail.last, exits := s.exits ++ [item.last] } := by
    simp [searchTurn, h.waits, hexit]
  rw [hturn]
  refine ⟨h.discovered, rfl, ?_, ?_⟩
  · simp [h.exits, hexit]
  · intro t ht
    exact h.walks t (by simpa using ht)

/-- Elsewhere the last blocks of the new trails are discovered, and walking back from one of them is
    walking back from the block it was discovered from. -/
theorem step_other (h : g.Tracks s done (item :: waiting) met)
    (hexit : g.isExit item.last = false) :
    let fresh := novel id met ((g.successors item.last).filter (· ∉ blocked))
    g.Tracks (g.searchTurn blocked s) (done ++ [item]) (waiting ++ fresh.map item.extend)
      (met ++ fresh) := by
  intro fresh
  have hturn : g.searchTurn blocked s
      = { s with
          parents := s.parents ++ fresh.map fun n => (n, some item.last)
          waiting := waiting.map Trail.last ++ fresh } := by
    simp only [searchTurn, h.waits, List.map_cons, hexit, Bool.false_eq_true, if_false]
    rw [ParentSearch.foldl_discover, h.discovered]
  rw [hturn]
  refine ⟨?_, ?_, ?_, ?_⟩
  · simp [h.discovered, Function.comp_def]
  · simp [Function.comp_def, Trail.extend]
  · simp [h.exits, hexit]
  · intro t ht
    have hold : ∀ t ∈ done ++ item :: waiting, ParentSearch.Walk
        (s.parents ++ fresh.map fun n => (n, some item.last)) t.last t.blocks :=
      fun t ht => (h.walks t ht).append _
    rw [List.append_assoc, List.singleton_append, ← List.cons_append, ← List.append_assoc,
      List.mem_append] at ht
    rcases ht with ht | ht
    · exact hold t ht
    · obtain ⟨n, hn, rfl⟩ := List.mem_map.mp ht
      rw [Trail.blocks_extend]
      refine ParentSearch.Walk.up (p := item.last) ?_ (hold item (by simp))
      -- The block is discovered now and not before.
      have hnew : s.parents.lookup n = none := by
        rw [List.lookup_eq_none_iff]
        intro row hrow
        have hne : n ≠ row.1 := by
          rintro rfl
          exact (mem_of_mem_novel hn).2 (h.discovered ▸ List.mem_map_of_mem hrow)
        simpa using hne
      rw [List.lookup_append, Trail.extend, hnew, Option.none_or]
      exact List.lookup_graph (fun _ => some item.last) hn

/-- One turn of the search along the parents is one step of the search of trails. -/
theorem step (h : g.Tracks s done (item :: waiting) met) :
    let fresh := novel Trail.last met (g.continuations blocked item)
    g.Tracks (g.searchTurn blocked s) (done ++ [item]) (waiting ++ fresh)
      (met ++ fresh.map Trail.last) := by
  intro fresh
  by_cases hexit : g.isExit item.last = true
  · have hfresh : fresh = [] := by simp [fresh, continuations, hexit, novel]
    simpa [hfresh] using h.step_exit hexit
  · have hfresh : fresh = (novel id met ((g.successors item.last).filter (· ∉ blocked))).map
        item.extend := by
      simp only [fresh, continuations, hexit, Bool.false_eq_true, if_false, novel_map]
      rfl
    have hlasts : fresh.map Trail.last
        = novel id met ((g.successors item.last).filter (· ∉ blocked)) := by
      simp [hfresh, Function.comp_def, Trail.extend]
    rw [hlasts, hfresh]
    exact h.step_other (by simpa using hexit)

end Tracks

/-- Before the first turn the start is the only trail. -/
theorem tracks_startSearch {start : Int} {blocked : List Int} (hstart : g.contains start = true)
    (hblocked : start ∉ blocked) :
    g.Tracks (g.startSearch start blocked) [] [⟨start, []⟩] [start] := by
  have hsearch : g.startSearch start blocked
      = { parents := [(start, none)], waiting := [start] } := by
    simp [startSearch, hstart, hblocked]
  rw [hsearch]
  refine ⟨rfl, rfl, rfl, ?_⟩
  intro t ht
  obtain rfl := List.mem_singleton.mp ht
  exact ParentSearch.Walk.root (by simp)

/-- The search along the parents comes to an end with the trails that are found. -/
theorem exists_tracks_trails (start : Int) (blocked : List Int) :
    ∃ k found, g.Tracks ((g.searchTurn blocked)^[k] (g.startSearch start blocked))
      (g.trails start blocked) [] found := by
  by_cases hguard : g.contains start = true ∧ start ∉ blocked
  · obtain ⟨hstart, hblocked⟩ := hguard
    rw [trails_eq hstart hblocked]
    obtain ⟨found, k, hend⟩ := exploreFrom_keeps
      (P := fun done waiting met => ∃ k, g.Tracks
        ((g.searchTurn blocked)^[k] (g.startSearch start blocked)) done waiting met)
      (continuations_within blocked) (start_within hstart) (Nat.le_of_eq g.numbers_length)
      (fun done item waiting met _ ⟨k, h⟩ =>
        ⟨k + 1, by rw [Function.iterate_succ_apply']; exact h.step⟩)
      ⟨0, g.tracks_startSearch hstart hblocked⟩
    exact ⟨k, found, hend⟩
  · have hsearch : g.startSearch start blocked = {} := by simpa [startSearch] using hguard
    refine ⟨0, [], ?_⟩
    rw [trails_eq_nil hguard, Function.iterate_zero, id_eq, hsearch]
    exact ⟨rfl, rfl, rfl, by simp⟩

/-- The exits that the search has met in the end are those that a path is found to. -/
theorem Tracks.mergeSort_exits {s : ParentSearch} {start : Int} {blocked found : List Int}
    (h : g.Tracks s (g.trails start blocked) [] found) :
    s.exits.mergeSort = g.foundExits start blocked := by
  have hnodup : s.exits.Nodup := by
    rw [h.exits]
    exact trails_nodup.filter _
  have hmem : ∀ e, e ∈ s.exits ↔ e ∈ g.foundExits start blocked := by
    intro e
    rw [h.exits, foundExits, List.mem_filter, List.mem_filter, g.mem_exitBlocks_iff, pathTo?,
      Option.isSome_map, List.find?_isSome, List.mem_map, and_comm]
    simp
  have hperm : s.exits.mergeSort.Perm (g.foundExits start blocked) := by
    refine (List.mergeSort_perm _ _).trans ((List.perm_ext_iff_of_nodup hnodup ?_).mpr hmem)
    exact (g.foundExits_ascending start blocked).imp fun hlt => Int.ne_of_lt hlt
  have hsorted : s.exits.mergeSort.Pairwise (· ≤ ·) := List.pairwise_mergeSort' (· ≤ ·) s.exits
  exact hperm.eq_of_pairwise (fun a b _ _ hab hba => Int.le_antisymm hab hba) hsorted
    ((g.foundExits_ascending start blocked).imp fun hlt => Int.le_of_lt hlt)

/-- **Shortest ways out.** The search along the parents comes to an end. The exits it has met then,
    put in ascending order, are those that some path leads to without a blocked block and without
    another exit on the way. The walk back from each of them comes to an end as well, and
    `pathsToExits` lists in the same order what the walks give: a path to each of the exits that is
    not longer than any other and has no loops. -/
theorem pathsToExits_eq_shortest (start : Int) (blocked : List Int) :
    ∃ k s, (g.searchTurn blocked)^[k] (g.startSearch start blocked) = s ∧ s.waiting = [] ∧
      s.exits.mergeSort.Pairwise (· < ·) ∧
      (∀ e, e ∈ s.exits.mergeSort ↔ ∃ path, g.ExitPath start blocked e path) ∧
      List.Forall₂ (ParentSearch.Walk s.parents) s.exits.mergeSort
        (g.pathsToExits start blocked) ∧
      List.Forall₂ (g.ShortestExit start blocked) s.exits.mergeSort
        (g.pathsToExits start blocked) := by
  obtain ⟨k, found, h⟩ := g.exists_tracks_trails start blocked
  refine ⟨k, _, rfl, h.waits, ?_⟩
  rw [h.mergeSort_exits]
  refine ⟨g.foundExits_ascending start blocked, g.mem_foundExits_iff start blocked, ?_, ?_⟩
  · refine g.forall₂_pathsToExits fun e _ path hpath => ?_
    obtain ⟨t, ht, rfl⟩ := Option.map_eq_some_iff.mp hpath
    obtain rfl : t.last = e := by simpa using List.find?_some ht
    exact h.walks t (by simpa using List.mem_of_find?_eq_some ht)
  · exact g.forall₂_pathsToExits fun e he path hpath => g.shortest_of_pathTo? he hpath

/-- Of two ways of the same length the one through the block that is listed first is found, unless
    that block is blocked. -/
theorem pathsToExits_eq_shortest_diamond :
    diamond.pathsToExits 0 [] = [[0, 1, 3]] ∧ diamond.ShortestExit 0 [] 3 [0, 1, 3] ∧
    diamond.pathsToExits 0 [1] = [[0, 2, 3]] ∧ diamond.ShortestExit 0 [1] 3 [0, 2, 3] := by
  have hshortest (blocked : List Int) (n : Int)
      (h : diamond.pathsToExits 0 blocked = [[0, n, 3]]) :
      diamond.ShortestExit 0 blocked 3 [0, n, 3] := by
    obtain ⟨_, _, _, _, _, _, _, hfound⟩ := diamond.pathsToExits_eq_shortest 0 blocked
    rw [h] at hfound
    obtain ⟨e, _, hexit, _, _⟩ := List.forall₂_cons_right_iff.mp hfound
    have hlast : [0, n] ++ [e] = [0, n, 3] := hexit.path.dropLast_append
    obtain rfl : e = 3 := by simpa using hlast
    exact hexit
  have hfree : diamond.pathsToExits 0 [] = [[0, 1, 3]] := by decide +kernel
  have hblocked : diamond.pathsToExits 0 [1] = [[0, 2, 3]] := by decide +kernel
  exact ⟨hfree, hshortest _ _ hfree, hblocked, hshortest _ _ hblocked⟩

end FlowGraph

end Hazard
