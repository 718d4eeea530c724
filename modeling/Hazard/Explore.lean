set_option autoImplicit false

/-! # Breadth-first exploration

One search serves every reachability question of the project: which blocks of a flow graph can be
reached, which functions a task runs, where a lock is released, and the shortest paths to the
exits of a function. Items are explored in the order in which they were discovered. Two items with
the same key stand for the same place, and only the first of them is ever queued, so a search over
`n` places takes at most `n` steps; the number of places is the `room` of the search. -/

namespace Hazard

variable {α β : Type} [DecidableEq α]

/-- The items whose key is not among `met`, one for each key, in the order in which they come. -/
def novel (key : β → α) (met : List α) : List β → List β
  | [] => []
  | item :: rest =>
    if key item ∈ met then novel key met rest
    else item :: novel key (key item :: met) rest

/-- Explores the waiting items, oldest first. Each item explored is followed by those of its
    successors whose key has not been met; `met` holds the keys of all items queued so far. -/
def explore (key : β → α) (next : β → List β) : (room : Nat) → (waiting : List β) →
    (met : List α) → List β
  | 0, _, _ => []
  | _ + 1, [], _ => []
  | room + 1, item :: waiting, met =>
    let fresh := novel key met (next item)
    item :: explore key next room (waiting ++ fresh) (met ++ fresh.map key)

/-- Everything found from `roots`, in order of discovery, among at most `room` places. -/
def exploreFrom (key : β → α) (next : β → List β) (room : Nat) (roots : List β) : List β :=
  let start := novel key [] roots
  explore key next room start (start.map key)

/-! ## What `novel` lets through -/

theorem mem_of_mem_novel {key : β → α} {met : List α} {items : List β} {x : β}
    (h : x ∈ novel key met items) : x ∈ items ∧ key x ∉ met := by
  induction items generalizing met with
  | nil => simp [novel] at h
  | cons item rest ih =>
    rw [novel] at h
    split at h
    · exact ⟨List.mem_cons_of_mem _ (ih h).1, (ih h).2⟩
    · rcases List.mem_cons.mp h with rfl | h
      · exact ⟨List.mem_cons_self, by assumption⟩
      · obtain ⟨hmem, hmet⟩ := ih h
        exact ⟨List.mem_cons_of_mem _ hmem, fun hx => hmet (List.mem_cons_of_mem _ hx)⟩

end Hazard
