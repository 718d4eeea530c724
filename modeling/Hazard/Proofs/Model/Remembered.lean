import Hazard.Model.Memo
import Hazard.Proofs.FlowGraph.Dominance
import Hazard.Proofs.Model.Calls

set_option autoImplicit false

/-! # A memo changes no answer

A memo starts empty, and every question may add to it what it has worked out, also in the middle of
another question. The facts are kept under names, and a section under all that is said about it; the
flow graphs that they were worked out from are not part of the key. So an answer could depend on
what was asked before.

It does not, since a memo stays coherent: every fact in it is the one that the unit itself has for
the key (`Memo.Coherent`). What a computation gives with any coherent memo is said by
`Asking.Yields`, with one rule for each way of putting computations together. The rules give one
lemma for each question, and by induction the answers to all questions that are asked one after the
other (`askAll_eq_fresh`). -/

namespace Hazard

/-- The blocks that have dominators are those that control can reach. -/
theorem Model.isSome_lookup_dominators (m : Model) (function : String) (block : Int) :
    ((m.dominators function).lookup block).isSome = m.isReachable function block := by
  unfold dominators isReachable
  cases m.function? function with
  | none => rfl
  | some f =>
      rw [Option.any_some, ← f.graph.dominators_keys]
      by_cases hblock : block ∈ f.graph.dominators.map Prod.fst
      · rw [DominatorTable.lookup_eq_some_of _ hblock, List.contains_iff_mem.mpr hblock]
        rfl
      · simp [DominatorTable.lookup_eq_none_of _ hblock, hblock]

namespace Memo

/-! ## Coherent memos -/

/-- What a unit itself has for a key, whatever is remembered. -/
def Key.fact (m : Model) : (key : Key) → key.Fact
  | names kind => Asking.indexOf m kind
  | reach entry => m.reachableFunctions entry
  | accesses binding => m.accessesOf binding
  | dominators function => m.dominators function
  | guarded s => m.guardedBlocks s

/-- Every fact that is remembered is the one that the unit has for its key. -/
def Coherent (m : Model) (memo : Memo) : Prop :=
  ∀ entry ∈ memo.entries, entry.2 = entry.1.fact m

theorem coherent_empty (m : Model) : Coherent m {} := by
  intro entry hentry
  exact absurd hentry List.not_mem_nil

theorem mem_of_find? {key : Key} {entries : List ((key : Key) × key.Fact)} {fact : key.Fact}
    (h : find? key entries = some fact) : ⟨key, fact⟩ ∈ entries := by
  induction entries with
  | nil => simp [find?] at h
  | cons entry rest ih =>
      obtain ⟨other, found⟩ := entry
      rw [find?] at h
      split at h
      · next heq =>
          subst heq
          obtain rfl := Option.some.inj h
          exact List.mem_cons_self
      · exact List.mem_cons_of_mem _ (ih h)

variable {m : Model} {memo : Memo}

theorem Coherent.eq_fact (h : memo.Coherent m) {key : Key} {fact : key.Fact}
    (hget : memo.get? key = some fact) : fact = key.fact m :=
  h ⟨key, fact⟩ (mem_of_find? hget)

theorem Coherent.put (h : memo.Coherent m) (key : Key) :
    (memo.put key (key.fact m)).Coherent m := by
  intro entry hentry
  rcases List.mem_cons.mp hentry with rfl | hold
  · rfl
  · exact h entry hold

end Memo

/-! ## Computations with a memo -/

namespace Asking

/-- With any coherent memo the computation gives `a`. It leaves a coherent memo, in which all that
    was remembered still is. -/
def Yields (m : Model) {α : Type} (x : Asking α) (a : α) : Prop :=
  ∀ memo : Memo, memo.Coherent m →
    (x.run memo).1 = a ∧ (x.run memo).2.Coherent m ∧ memo.entries <:+ (x.run memo).2.entries

variable {m : Model}

theorem Yields.pure {α : Type} (a : α) : Yields m (Pure.pure a) a := by
  intro memo hmemo
  exact ⟨rfl, hmemo, List.suffix_refl _⟩

theorem Yields.bind {α β : Type} {x : Asking α} {f : α → Asking β} {a : α} {b : β}
    (hx : Yields m x a) (hf : Yields m (f a) b) : Yields m (x >>= f) b := by
  intro memo hmemo
  obtain ⟨rfl, hleft, hkept⟩ := hx memo hmemo
  obtain ⟨hvalue, hleft', hkept'⟩ := hf (x.run memo).2 hleft
  exact ⟨hvalue, hleft', hkept.trans hkept'⟩

theorem run_remember_of_some {key : Memo.Key} {work : Asking key.Fact} {memo : Memo}
    {fact : key.Fact} (h : memo.get? key = some fact) :
    (remember key work).run memo = (fact, memo) := by
  simp only [remember, StateT.run_bind, StateT.run_get, pure_bind, h, StateT.run_pure]
  rfl

theorem run_remember_of_none {key : Memo.Key} {work : Asking key.Fact} {memo : Memo}
    (h : memo.get? key = none) :
    (remember key work).run memo
      = ((work.run memo).1, (work.run memo).2.put key (work.run memo).1) := by
  simp only [remember, StateT.run_bind, StateT.run_get, pure_bind, h, StateT.run_modify]
  rfl

/-- Remembering is invisible when the fact that is worked out is the one that the unit has. -/
theorem Yields.remember (key : Memo.Key) {work : Asking key.Fact} {fact : key.Fact}
    (hfact : key.fact m = fact) (h : Yields m work fact) : Yields m (remember key work) fact := by
  intro memo hmemo
  subst hfact
  cases hget : memo.get? key with
  | some found =>
      rw [run_remember_of_some hget]
      exact ⟨hmemo.eq_fact hget, hmemo, List.suffix_refl _⟩
  | none =>
      obtain ⟨hvalue, hleft, hkept⟩ := h memo hmemo
      rw [run_remember_of_none hget, hvalue]
      exact ⟨rfl, hleft.put key, hkept.trans (List.suffix_cons _ _)⟩

theorem Yields.keep {α : Type} {question : α → Asking Bool} {p : α → Bool} {items : List α}
    (h : ∀ item ∈ items, Yields m (question item) (p item)) :
    Yields m (keep question items) (items.filter p) := by
  induction items with
  | nil => exact Yields.pure []
  | cons item rest ih =>
      rw [List.filter_cons]
      have hrest := ih fun other hother => h other (List.mem_cons_of_mem _ hother)
      exact (h item List.mem_cons_self).bind (hrest.bind (Yields.pure _))

theorem Yields.any {α : Type} {question : α → Asking Bool} {p : α → Bool} {items : List α}
    (h : ∀ item ∈ items, Yields m (question item) (p item)) :
    Yields m (any question items) (items.any p) := by
  induction items with
  | nil => exact Yields.pure false
  | cons item rest ih =>
      have hrest := ih fun other hother => h other (List.mem_cons_of_mem _ hother)
      rw [List.any_cons]
      refine (h item List.mem_cons_self).bind ?_
      cases p item with
      | true => exact Yields.pure true
      | false => exact hrest

theorem Yields.explore {next : String → Asking (List String)} {calls : String → List String}
    (h : ∀ name, Yields m (next name) (calls name)) (room : Nat) (waiting met : List String) :
    Yields m (explore next room waiting met) (Hazard.explore id calls room waiting met) := by
  induction room generalizing waiting met with
  | zero => exact Yields.pure []
  | succ room ih =>
      cases waiting with
      | nil => exact Yields.pure []
      | cons name waiting =>
          rw [Hazard.explore, List.map_id]
          exact (h name).bind ((ih _ _).bind (Yields.pure _))

/-! ## Names -/

/-- Looking a name up among the first entities of each name is looking for the first entity that
    has it. -/
theorem lookup_index {α : Type} (name : α → String) (entities : List α) (k : String) :
    (index name entities).lookup k = entities.find? (name · == k) := by
  suffices h : ∀ met : List String, k ∉ met →
      ((novel name met entities).map fun entity => (name entity, entity)).lookup k
        = entities.find? (name · == k) from h [] List.not_mem_nil
  induction entities with
  | nil =>
      intro met _
      rfl
  | cons entity rest ih =>
      intro met hmet
      rw [novel, List.find?_cons]
      by_cases hk : name entity = k
      · subst hk
        simp [hmet]
      · have hne : (name entity == k) = false := by simpa using hk
        have hne' : (k == name entity) = false := by simpa using Ne.symm hk
        rw [hne]
        split
        · exact ih met hmet
        · rw [List.map_cons, List.lookup_cons, hne']
          exact ih _ (by simpa [Ne.symm hk] using hmet)

variable (m)

/-- What a name of a kind stands for. -/
def entity? : (kind : Memo.Kind) → String → Option kind.Entity
  | .binding => m.binding?
  | .lock => m.lock?
  | .function => m.function?
  | .instant => m.instant?

theorem named?_yields (kind : Memo.Kind) (name : String) :
    Yields m (named? m kind name) (entity? m kind name) := by
  have hlookup : (indexOf m kind).lookup name = entity? m kind name := by
    cases kind with
    | binding => exact lookup_index Binding.name m.bindings name
    | lock => exact lookup_index Lock.name m.locks name
    | function => exact lookup_index Function.name m.functions name
    | instant => exact lookup_index Instant.name m.instants name
  rw [← hlookup]
  exact (Yields.remember (.names kind) rfl (Yields.pure _)).bind (Yields.pure _)

theorem function?_yields (name : String) : Yields m (function? m name) (m.function? name) :=
  named?_yields m .function name

/-! ## Calls and tasks -/

theorem callees_yields (name : String) : Yields m (callees m name) (m.callees name) := by
  refine (function?_yields m name).bind ?_
  unfold Model.callees
  cases m.function? name with
  | none => exact Yields.pure []
  | some f => exact Yields.keep fun callee _ => (function?_yields m callee).bind (Yields.pure _)

theorem reachableFunctions_yields (entry : String) :
    Yields m (reachableFunctions m entry) (m.reachableFunctions entry) := by
  refine Yields.remember (.reach entry) rfl ((function?_yields m entry).bind ?_)
  unfold Model.reachableFunctions
  cases m.function? entry with
  | none => exact Yields.pure []
  | some _ => exact Yields.explore (callees_yields m) m.functions.length [entry] [entry]

theorem tasksReaching_yields (function : String) :
    Yields m (tasksReaching m function) (m.tasksReaching function) :=
  Yields.keep fun t _ => (reachableFunctions_yields m t.entry).bind (Yields.pure _)

theorem sharingTasks_yields (function binding : String) :
    Yields m (sharingTasks m function binding) (m.sharingTasks function binding) :=
  (tasksReaching_yields m function).bind (Yields.pure _)

theorem accessesOf_yields (binding : String) :
    Yields m (accessesOf m binding) (m.accessesOf binding) :=
  Yields.remember (.accesses binding) rfl (Yields.pure _)

/-! ## Locks -/

theorem dominators_yields (function : String) :
    Yields m (dominators m function) (m.dominators function) := by
  refine (function?_yields m function).bind ?_
  cases hf : m.function? function with
  | none =>
      rw [Model.dominators, hf]
      exact Yields.pure []
  | some f =>
      have hfact : m.dominators function = f.graph.dominators := by rw [Model.dominators, hf]
      rw [hfact]
      exact Yields.remember (.dominators function) hfact (Yields.pure _)

theorem isReachable_yields (function : String) (block : Int) :
    Yields m (isReachable m function block) (m.isReachable function block) := by
  rw [← m.isSome_lookup_dominators]
  exact (dominators_yields m function).bind (Yields.pure _)

theorem guardedBlocks_yields (s : CriticalSection) :
    Yields m (guardedBlocks m s) (m.guardedBlocks s) := by
  refine (function?_yields m s.function).bind ?_
  cases hf : m.function? s.function with
  | none =>
      rw [Model.guardedBlocks, hf]
      exact Yields.pure []
  | some f =>
      have hfact : m.guardedBlocks s = s.guardedBlocks f.graph := by rw [Model.guardedBlocks, hf]
      -- The dominators are asked for by name, and the name stands for this function.
      have hdominators : Yields m (dominators m f.name) f.graph.dominators := by
        have hname : m.dominators f.name = f.graph.dominators := by
          rw [Model.dominators, Model.name_of_function? hf, hf]
        exact hname ▸ dominators_yields m f.name
      rw [hfact]
      exact Yields.remember (.guarded s) hfact (hdominators.bind (Yields.pure _))

theorem guards_yields (function : String) (block : Int) (binding : String) (s : CriticalSection) :
    Yields m (guards m function block binding s)
      (s.function == function && m.excludes s binding && (m.guardedBlocks s).contains block) := by
  unfold guards
  by_cases hfunction : s.function = function
  · rw [if_neg (by simpa using hfunction), beq_iff_eq.mpr hfunction, Bool.true_and]
    refine (named?_yields m .lock s.lock).bind ?_
    unfold entity? Model.excludes
    cases (m.lock? s.lock).all (·.guards binding) with
    | false => exact Yields.pure false
    | true => exact (guardedBlocks_yields m s).bind (Yields.pure _)
  · rw [if_pos (by simpa using hfunction), beq_eq_false_iff_ne.mpr hfunction]
    exact Yields.pure false

theorem isGuarded_yields (function : String) (block : Int) (binding : String) :
    Yields m (isGuarded m function block binding) (m.isGuarded function block binding) := by
  rw [Model.isGuarded_eq_any]
  exact Yields.any fun s _ => guards_yields m function block binding s

theorem accessesInSection_yields (s : CriticalSection) :
    Yields m (accessesInSection m s) (m.accessesInSection s) := by
  refine (function?_yields m s.function).bind ?_
  unfold Model.accessesInSection
  cases m.function? s.function with
  | none => exact Yields.pure []
  | some f => exact (guardedBlocks_yields m s).bind (Yields.pure _)

end Asking

/-! ## Questions -/

namespace Question

variable (m : Model)

/-- Each question gets the answer of the unit. -/
theorem ask_yields (q : Question) : Asking.Yields m (q.ask m) (q.answer m) := by
  cases q with
  | binding name => exact Asking.named?_yields m .binding name
  | lock name => exact Asking.named?_yields m .lock name
  | function name => exact Asking.named?_yields m .function name
  | instant name => exact Asking.named?_yields m .instant name
  | reachableFunctions entry => exact Asking.reachableFunctions_yields m entry
  | tasksReaching function => exact Asking.tasksReaching_yields m function
  | sharingTasks function binding => exact Asking.sharingTasks_yields m function binding
  | accessesOf binding => exact Asking.accessesOf_yields m binding
  | dominators function => exact Asking.dominators_yields m function
  | isReachable function block => exact Asking.isReachable_yields m function block
  | guardedBlocks s => exact Asking.guardedBlocks_yields m s
  | isGuarded function block binding => exact Asking.isGuarded_yields m function block binding
  | accessesInSection s => exact Asking.accessesInSection_yields m s

theorem askAll_yields (questions : List Question) :
    Asking.Yields m (askAll m questions) (questions.map fun q => ⟨q, q.answer m⟩) := by
  induction questions with
  | nil => exact Asking.Yields.pure []
  | cons q rest ih => exact (ask_yields m q).bind (ih.bind (Asking.Yields.pure _))

/-- **A memo changes no answer.** Whatever is asked one after the other, starting with nothing
    remembered, every question gets the answer that it gets when it is the only one, which is the
    answer of the unit itself, and every fact that is remembered in the end is the one that the unit
    has for its key. Each question keeps it so: with any coherent memo it gets the same answer, and
    leaves a coherent memo from which nothing is missing. -/
theorem askAll_eq_fresh :
    (∀ questions : List Question,
      ((askAll m questions).run {}).1 = questions.map (fun q => ⟨q, ((q.ask m).run {}).1⟩)
      ∧ ((askAll m questions).run {}).1 = questions.map (fun q => ⟨q, q.answer m⟩)
      ∧ ∀ entry ∈ ((askAll m questions).run {}).2.entries, entry.2 = entry.1.fact m)
    ∧ ∀ (q : Question) (memo : Memo), memo.Coherent m →
      ((q.ask m).run memo).1 = ((q.ask m).run {}).1
      ∧ ((q.ask m).run memo).2.Coherent m
      ∧ memo.entries <:+ ((q.ask m).run memo).2.entries := by
  have hfresh : ∀ q : Question, ((q.ask m).run {}).1 = q.answer m := fun q =>
    (ask_yields m q {} (Memo.coherent_empty m)).1
  refine ⟨fun questions => ?_, fun q memo hmemo => ?_⟩
  · obtain ⟨hanswers, hcoherent, _⟩ := askAll_yields m questions {} (Memo.coherent_empty m)
    refine ⟨?_, hanswers, hcoherent⟩
    simp only [hanswers, hfresh]
  · rw [hfresh q]
    exact ask_yields m q memo hmemo

/-- Two functions that call each other, another one with the name of the first, and a task. -/
def backAndForth : Model where
  unit := "u"
  functions := [{ name := "f", calls := ["g"] }, { name := "g", calls := ["f"] },
    { name := "f", calls := ["h"] }, { name := "h" }]
  tasks := [{ name := "t", entry := "f" }]

/-- What was remembered for one task answers the questions about all functions that it reaches. -/
theorem askAll_eq_fresh_backAndForth :
    let memo := ((askAll backAndForth [.tasksReaching "g"]).run {}).2
    memo.get? (.reach "f") = some ["f", "g"] ∧ memo.Coherent backAndForth
      ∧ ∀ function, (((tasksReaching function).ask backAndForth).run memo).1
        = (((tasksReaching function).ask backAndForth).run {}).1 := by
  obtain ⟨hall, hone⟩ := askAll_eq_fresh backAndForth
  have hmemo := (hall [.tasksReaching "g"]).2.2
  exact ⟨by decide, hmemo, fun function => (hone (.tasksReaching function) _ hmemo).1⟩

end Question

end Hazard
