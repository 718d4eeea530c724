import Hazard.Proofs.Explore.Layers
import Hazard.Proofs.Model.Calls
import Mathlib.Logic.Function.Iterate
import Mathlib.Order.Lattice.Nat

set_option autoImplicit false

/-! # The nearest functions come first

The functions that can run once a function is called are found with a queue. Calls may come back to
a function, or go to a name that nothing has, and neither keeps the search from its end:
`Model.reachableFunctions` holds what is found when nothing waits any more
(`iterate_callTurn`).

How far a function is from the entry is the number of calls in a shortest chain to it. A search of
names does not know this number. So the names are explored together with a count of the calls that
led to them, which changes neither what is found nor its order (`map_fst_countedFunctions`). The
counts ascend, since a search goes by depth, and each of them is the distance
(`count_eq_callDistance`). -/

namespace Hazard

/-! ## The queue -/

/-- A search in progress: the functions found so far, in the order of discovery, and those whose
    calls are still to be looked at. -/
structure CallSearch where
  found : List String := []
  waiting : List String := []

/-- Queues a function that is called, unless it was found before or is not defined. -/
def CallSearch.discover (m : Model) (s : CallSearch) (callee : String) : CallSearch :=
  if callee ∉ s.found ∧ (m.function? callee).isSome = true then
    { found := s.found ++ [callee], waiting := s.waiting ++ [callee] }
  else s

/-- The functions that looking at a list of calls adds. -/
theorem CallSearch.foldl_discover (m : Model) (s : CallSearch) (calls : List String) :
    let fresh := novel id s.found (calls.filter fun callee => (m.function? callee).isSome)
    calls.foldl (discover m) s
      = { found := s.found ++ fresh, waiting := s.waiting ++ fresh } := by
  induction calls generalizing s with
  | nil => simp [novel]
  | cons callee rest ih =>
      rw [List.foldl_cons, ih]
      by_cases hdefined : (m.function? callee).isSome = true
      · rw [List.filter_cons_of_pos (by simpa using hdefined), novel]
        by_cases hfound : callee ∈ s.found
        · simp [discover, hfound]
        · have hmet : ∀ k, k ∈ s.found ++ [callee] ↔ k ∈ id callee :: s.found := by
            intro k
            simp [or_comm]
          rw [if_neg (by exact hfound), discover, if_pos ⟨hfound, hdefined⟩]
          dsimp only
          rw [novel_congr hmet]
          simp
      · simp [discover, hdefined]

namespace Model

variable (m : Model)

/-- The search before its first turn. -/
def startCalls (entry : String) : CallSearch :=
  if (m.function? entry).isSome then { found := [entry], waiting := [entry] } else {}

/-- One turn of the search. The calls of the first function that waits are looked at. -/
def callTurn (s : CallSearch) : CallSearch :=
  match s.waiting with
  | [] => s
  | name :: rest =>
    match m.function? name with
    | none => { s with waiting := rest }
    | some f => f.calls.foldl (CallSearch.discover m) { s with waiting := rest }

theorem callTurn_cons (found : List String) (name : String) (rest : List String) :
    let fresh := novel id found (m.callees name)
    m.callTurn { found := found, waiting := name :: rest }
      = { found := found ++ fresh, waiting := rest ++ fresh } := by
  simp only [callTurn, callees]
  cases m.function? name with
  | none => simp [novel]
  | some f => exact CallSearch.foldl_discover m _ f.calls

/-- The search with a queue has taken one turn for each of the functions explored, and has found
    them and those that wait. -/
def TurnedTo (entry : String) (done waiting : List String) : Prop :=
  m.callTurn^[done.length] { found := [entry], waiting := [entry] }
    = { found := done ++ waiting, waiting := waiting }

theorem TurnedTo.step {m : Model} {entry item : String} {done waiting met : List String}
    (hmet : met = done ++ item :: waiting) (h : m.TurnedTo entry done (item :: waiting)) :
    m.TurnedTo entry (done ++ [item]) (waiting ++ novel id met (m.callees item)) := by
  unfold TurnedTo at h ⊢
  rw [List.length_append, List.length_singleton, Function.iterate_succ_apply', h, callTurn_cons,
    hmet]
  simp

/-- The search ends after one turn for each function that it finds, with nothing left to look at. -/
theorem iterate_callTurn (entry : String) :
    m.callTurn^[(m.reachableFunctions entry).length] (m.startCalls entry)
      = { found := m.reachableFunctions entry, waiting := [] } := by
  rw [reachableFunctions, startCalls]
  split
  · next hentry =>
      have hend : ∃ _ : List String,
          m.TurnedTo entry (exploreFrom id m.callees m.functions.length [entry]) [] :=
        exploreFrom_keeps (P := fun done waiting _ => m.TurnedTo entry done waiting)
          (fun _ _ _ h => m.mem_names_of_mem_callees h) (m.mem_names_of_mem_root hentry)
          (Nat.le_of_eq (List.length_map _))
          (fun _ _ _ _ hfrontier h => h.step (by simpa using hfrontier.keys))
          (by simp [TurnedTo, novel])
      obtain ⟨_, hend⟩ := hend
      rwa [TurnedTo, List.append_nil] at hend
  · rfl

/-! ## Distances -/

/-- How many calls it takes at least to come from `entry` to a function. -/
noncomputable def callDistance (entry name : String) : Nat :=
  sInf {n | ∃ chain, m.CallChain entry name chain ∧ chain.length = n + 1}

theorem callDistance_le {m : Model} {entry name : String} {chain : List String} {n : Nat}
    (h : m.CallChain entry name chain) (hn : chain.length = n + 1) :
    m.callDistance entry name ≤ n :=
  Nat.sInf_le ⟨chain, h, hn⟩

theorem exists_chain_of_callDistance {m : Model} {entry name : String} {chain : List String}
    {n : Nat} (h : m.CallChain entry name chain) (hn : chain.length = n + 1) :
    ∃ shortest, m.CallChain entry name shortest
      ∧ shortest.length = m.callDistance entry name + 1 :=
  Nat.sInf_mem (s := {n | ∃ chain, m.CallChain entry name chain ∧ chain.length = n + 1})
    ⟨n, chain, h, hn⟩

/-! ## Counting the calls -/

/-- The functions that a function calls, each with the number of calls that lead to it. -/
def countedCallees (x : String × Nat) : List (String × Nat) :=
  (m.callees x.1).map fun callee => (callee, x.2 + 1)

/-- The functions that can run once `entry` is called, each with the number of calls that led to
    it. -/
def countedFunctions (entry : String) : List (String × Nat) :=
  exploreFrom Prod.fst m.countedCallees m.functions.length [(entry, 0)]

/-- Counting changes nothing. -/
theorem map_fst_countedFunctions {entry : String} (hentry : (m.function? entry).isSome = true) :
    (m.countedFunctions entry).map Prod.fst = m.reachableFunctions entry := by
  have hnext : ∀ x, m.callees x.1 = (m.countedCallees x).map Prod.fst := by
    intro x
    simp [countedCallees, Function.comp_def]
  have hcounted : exploreFrom id m.callees m.functions.length ([(entry, 0)].map Prod.fst)
      = (m.countedFunctions entry).map Prod.fst :=
    exploreFrom_map (fun _ => rfl) hnext m.functions.length [(entry, 0)]
  rw [reachableFunctions, if_pos hentry, ← hcounted]
  rfl

/-- A count that is reached is the length of a chain, and the other way round. -/
theorem counted_iff {entry : String} (hentry : (m.function? entry).isSome = true)
    (x : String × Nat) :
    Relation.ReflTransGen (fun a b => b ∈ m.countedCallees a) (entry, 0) x ↔
      ∃ chain, m.CallChain entry x.1 chain ∧ chain.length = x.2 + 1 := by
  constructor
  · intro hreach
    induction hreach with
    | refl => exact ⟨[entry], .start hentry, rfl⟩
    | tail _ hcall ih =>
        obtain ⟨chain, hchain, hlength⟩ := ih
        obtain ⟨callee, hcallee, rfl⟩ := List.mem_map.mp hcall
        obtain ⟨f, hf, hcalls, hdefined⟩ := (m.mem_callees_iff _ _).mp hcallee
        exact ⟨chain ++ [callee], hchain.call hf hcalls hdefined, by simp [hlength]⟩
  · rintro ⟨chain, hchain, hlength⟩
    obtain ⟨name, n⟩ := x
    dsimp only at hchain hlength
    induction hchain generalizing n with
    | start _ =>
        obtain rfl : n = 0 := by simpa using hlength.symm
        exact .refl
    | @call caller callee f chain hchain hf hcalls hdefined ih =>
        have hcallee := (m.mem_callees_iff caller callee).mpr ⟨f, hf, hcalls, hdefined⟩
        have hpositive : 0 < chain.length := by cases hchain <;> simp
        obtain ⟨k, rfl⟩ : ∃ k, n = k + 1 := ⟨n - 1, by simp at hlength; omega⟩
        have hbefore := ih k (by simpa using hlength)
        exact hbefore.tail (List.mem_map.mpr ⟨callee, hcallee, rfl⟩)

section Counted

variable {m} {entry : String}

/-! The counted search is one among the names of the functions. -/

theorem countedCallees_within (x : String × Nat) (_ : x.1 ∈ m.functions.map (·.name)) :
    ∀ y ∈ m.countedCallees x, y.1 ∈ m.functions.map (·.name) := by
  intro y hy
  obtain ⟨callee, hcallee, rfl⟩ := List.mem_map.mp hy
  exact m.mem_names_of_mem_callees hcallee

theorem countedEntry_within (hentry : (m.function? entry).isSome = true) :
    ∀ x ∈ [(entry, 0)], x.1 ∈ m.functions.map (·.name) := by
  simpa using m.mem_names_of_mem_root hentry

theorem snd_of_mem_countedCallees (x : String × Nat) :
    ∀ y ∈ m.countedCallees x, y.2 = x.2 + 1 := by
  intro y hy
  obtain ⟨callee, _, rfl⟩ := List.mem_map.mp hy
  rfl

/-- Which functions come next does not depend on the count. -/
theorem countedCallees_congr (x x' : String × Nat) (h : x.1 = x'.1) :
    ∀ y ∈ m.countedCallees x, ∃ y' ∈ m.countedCallees x', y'.1 = y.1 := by
  intro y hy
  obtain ⟨callee, hcallee, rfl⟩ := List.mem_map.mp hy
  exact ⟨_, List.mem_map.mpr ⟨callee, h ▸ hcallee, rfl⟩, rfl⟩

/-- The number of calls that led to a function is its distance from the entry. -/
theorem count_eq_callDistance (hentry : (m.function? entry).isSome = true) {x : String × Nat}
    (hx : x ∈ m.countedFunctions entry) : x.2 = m.callDistance entry x.1 := by
  obtain ⟨r, hr, hreach⟩ := exploreFrom_sound _ _ _ _ x hx
  obtain rfl := List.mem_singleton.mp hr
  obtain ⟨chain, hchain, hlength⟩ := (m.counted_iff hentry x).mp hreach
  refine Nat.le_antisymm ?_ (callDistance_le hchain hlength)
  -- A shortest chain leads to the same function, and nothing deeper than it is found there.
  have hshortest : Relation.ReflTransGen (fun a b => b ∈ m.countedCallees a) (entry, 0)
      (x.1, m.callDistance entry x.1) :=
    (m.counted_iff hentry _).mpr (exists_chain_of_callDistance hchain hlength)
  have hnear : NearAmong Prod.fst Prod.snd (m.countedFunctions entry)
      (x.1, m.callDistance entry x.1) :=
    exploreFrom_nearest countedCallees_within (countedEntry_within hentry)
      (Nat.le_of_eq (List.length_map _)) snd_of_mem_countedCallees (by simp) countedCallees_congr
      List.mem_cons_self hshortest
  obtain ⟨y, hy, hname, hle⟩ := hnear
  have honce : ((m.countedFunctions entry).map Prod.fst).Nodup :=
    exploreFrom_nodup countedCallees_within (countedEntry_within hentry)
      (Nat.le_of_eq (List.length_map _))
  obtain rfl : y = x := List.inj_on_of_nodup_map honce hy hx hname
  exact hle

end Counted

/-- No function is found before one that is nearer. -/
theorem reachableFunctions_pairwise (entry : String) :
    (m.reachableFunctions entry).Pairwise fun a b =>
      m.callDistance entry a ≤ m.callDistance entry b := by
  by_cases hentry : (m.function? entry).isSome = true
  · have hlayered : Layered Prod.fst m.countedCallees Prod.snd [(entry, 0)]
        (m.countedFunctions entry) [] :=
      exploreFrom_layered countedCallees_within (countedEntry_within hentry)
        (Nat.le_of_eq (List.length_map _)) snd_of_mem_countedCallees (by simp)
    have hordered : (m.countedFunctions entry).Pairwise fun x y => x.2 ≤ y.2 := by
      simpa using hlayered.ordered
    rw [← m.map_fst_countedFunctions hentry, List.pairwise_map]
    refine hordered.imp_of_mem fun hx hy hle => ?_
    rwa [← count_eq_callDistance hentry hx, ← count_eq_callDistance hentry hy]
  · simp [reachableFunctions, hentry]

/-! ## What the search returns -/

/-- The entry comes first. -/
theorem exists_reachableFunctions_eq_cons {entry : String}
    (hentry : (m.function? entry).isSome = true) :
    ∃ rest, m.reachableFunctions entry = entry :: rest := by
  obtain ⟨f, hf⟩ := Option.isSome_iff_exists.mp hentry
  have hmem : f ∈ m.functions := List.mem_of_find?_eq_some hf
  obtain ⟨room, hroom⟩ := Nat.exists_eq_succ_of_ne_zero
    (Nat.ne_of_gt (List.length_pos_of_mem hmem))
  rw [reachableFunctions, if_pos hentry, hroom]
  exact ⟨_, rfl⟩

theorem reachableFunctions_eq_nil_iff (entry : String) :
    m.reachableFunctions entry = [] ↔ m.function? entry = none := by
  constructor
  · intro hnil
    by_contra hne
    obtain ⟨rest, hcons⟩ :=
      m.exists_reachableFunctions_eq_cons (Option.isSome_iff_ne_none.mpr hne)
    exact List.cons_ne_nil _ _ (hcons.symm.trans hnil)
  · intro hnone
    simp [reachableFunctions, hnone]

/-- **Breadth first along the calls.** The search with a queue comes to an end, and what it has
    found then is `reachableFunctions`: nothing when the entry is not defined, and else the entry
    and after it every function at the end of a chain of calls, each once and none before one that
    is nearer to the entry. So the tasks that reach a function are those with a chain of calls from
    their entry to it, in their order. -/
theorem reachableFunctions_eq_breadthFirst :
    (∀ entry,
      (∃ turns, m.callTurn^[turns] (m.startCalls entry)
        = { found := m.reachableFunctions entry, waiting := [] })
      ∧ (m.reachableFunctions entry = [] ↔ m.function? entry = none)
      ∧ (m.function? entry ≠ none → ∃ rest, m.reachableFunctions entry = entry :: rest)
      ∧ (m.reachableFunctions entry).Nodup
      ∧ (∀ name, name ∈ m.reachableFunctions entry ↔ ∃ chain, m.CallChain entry name chain)
      ∧ (m.reachableFunctions entry).Pairwise fun a b =>
        m.callDistance entry a ≤ m.callDistance entry b)
    ∧ ∀ function, m.tasksReaching function
      = m.tasks.filter fun t => m.Runs t.entry function := by
  refine ⟨fun entry => ⟨⟨_, m.iterate_callTurn entry⟩, m.reachableFunctions_eq_nil_iff entry, ?_,
    m.reachableFunctions_nodup entry, m.mem_reachableFunctions_iff entry,
    m.reachableFunctions_pairwise entry⟩, m.tasksReaching_eq⟩
  intro hentry
  exact m.exists_reachableFunctions_eq_cons (Option.isSome_iff_ne_none.mpr hentry)

/-- A unit in which calls come back to where they started, go to a name that nothing has, and go to
    a name that two functions have. -/
def callingBack : Model where
  unit := "u"
  functions := [{ name := "f", calls := ["g", "lost", "f", "h"] },
    { name := "g", calls := ["k", "h", "f"] }, { name := "h", calls := ["g"] }, { name := "k" },
    { name := "f", calls := ["other"] }, { name := "other" }]
  tasks := [{ name := "s", entry := "h" }, { name := "t", entry := "other" }]

/-- What only the second function of the name calls is not reached, and `k` is not nearer than what
    `f` calls itself. -/
theorem reachableFunctions_eq_breadthFirst_callingBack :
    callingBack.function? "f" ≠ none
    ∧ (∃ rest, callingBack.reachableFunctions "f" = "f" :: rest)
    ∧ (¬∃ chain, callingBack.CallChain "f" "other" chain)
    ∧ callingBack.callDistance "f" "h" ≤ callingBack.callDistance "f" "k" := by
  have hfound : callingBack.reachableFunctions "f" = ["f", "g", "h", "k"] := by decide
  obtain ⟨hsearch, _⟩ := callingBack.reachableFunctions_eq_breadthFirst
  obtain ⟨_, _, hfirst, _, hmem, hordered⟩ := hsearch "f"
  refine ⟨by decide, hfirst (by decide), ?_, ?_⟩
  · rw [← hmem, hfound]
    decide
  · rw [hfound] at hordered
    have hrest := (List.pairwise_cons.mp (List.pairwise_cons.mp hordered).2).2
    exact List.rel_of_pairwise_cons hrest (by simp)

end Model

end Hazard
