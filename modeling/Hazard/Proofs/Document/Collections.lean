import Hazard.Proofs.Document.Breakdown

set_option autoImplicit false

/-! # The collections in a document

Some fields of an entity hold a list of names or of blocks, and one holds a mapping. What a document
gives for such a field is looked at only if it says something: a zero, a false or an empty text
under `exit_blocks` passes for the empty list, and the lock is then taken to be held to the end.
Every other value of another kind makes the reader refuse the document.

A result says that every step of a reader had one, so a condition that one step checks holds for all
documents that are read. `Reading.Requires` carries it from the step to the reader. -/

namespace Hazard

namespace Entries

/-- A field is absent, a list or a value that says nothing. -/
def Lists (raw : Entries) (key : String) : Prop :=
  ∀ v, raw.get? key = some v → v.isEmpty = true ∨ ∃ vs, v = .list vs

/-- A field is absent, a mapping or a value that says nothing. -/
def Maps (raw : Entries) (key : String) : Prop :=
  ∀ v, raw.get? key = some v → v.isEmpty = true ∨ ∃ es, v = .mapping es

end Entries

/-- The collections in a document are collections, or say nothing. -/
structure Document.Collected (entries : Entries) : Prop where
  protects : ∀ lock ∈ entries.entities "locks", lock.Lists "protects"
  calls : ∀ f ∈ entries.entities "functions", f.Lists "calls"
  successors : ∀ f ∈ entries.entities "functions",
    ∀ block ∈ f.entities "blocks", block.Lists "successors"
  exits : ∀ s ∈ entries.entities "critical_sections", s.Lists "exit_blocks"
  captures : ∀ task ∈ entries.entities "tasks", task.Maps "captures"
  stops : ∀ timer ∈ entries.entities "timers", timer.Lists "stop_blocks"

namespace Reading

variable {α β : Type} {Q : Prop}

/-- A reader has a result only if a condition holds. -/
def Requires (r : Reading α) (Q : Prop) : Prop := ∀ a, r = .ok a → Q

theorem Requires.left {r : Reading α} {f : α → Reading β} (h : Requires r Q) :
    Requires (r >>= f) Q := by
  intro b hb
  obtain ⟨a, ha, _⟩ := (bind_eq_ok_iff r f b).mp hb
  exact h a ha

theorem Requires.right {r : Reading α} {f : α → Reading β} (h : ∀ a, Requires (f a) Q) :
    Requires (r >>= f) Q := by
  intro b hb
  obtain ⟨a, _, hfa⟩ := (bind_eq_ok_iff r f b).mp hb
  exact h a b hfa

end Reading

open Reading (Requires)

namespace Field

variable {raw : Entries} {key : String}

theorem listed_requires {e : ShapeError} : Requires (listed raw key e) (raw.Lists key) := by
  intro vs h v hget
  rw [listed, hget] at h
  dsimp only at h
  split_ifs at h with hempty
  · exact .inl hempty
  · split at h
    next vs' => exact .inr ⟨vs', rfl⟩
    next => exact absurd h (Reading.refuse_ne_ok _ _)

theorem integers_requires : Requires (integers raw key) (raw.Lists key) := listed_requires.left

theorem names_requires : Requires (names raw key) (raw.Lists key) := listed_requires.left

end Field

namespace Read

open Hazard.Field

variable {raw : Entries} {unit : String}

theorem each_requires {α : Type} {key : String} {read : Entries → Reading α} {Q : Entries → Prop}
    (hread : ∀ e, Requires (read e) (Q e)) :
    Requires (each raw key read) (∀ e ∈ raw.entities key, Q e) := by
  intro xs hxs e he
  obtain ⟨es, hes, hmap⟩ := (bind_eq_ok_iff _ _ xs).mp hxs
  rw [← items_eq_ok hes] at he
  obtain ⟨x, hx⟩ := exists_of_mapM_eq_ok hmap he
  exact hread e x hx

theorem lock_requires : Requires (lock unit raw) (raw.Lists "protects") :=
  .right fun _ => .right fun _ => names_requires.left

theorem block_requires {number : Nat} :
    Requires (block unit number raw) (raw.Lists "successors") :=
  integers_requires.left

theorem blocks_requires {number : Nat} {raws : List Entries} :
    Requires (blocks unit number raws) (∀ raw ∈ raws, raw.Lists "successors") := by
  induction raws generalizing number with
  | nil => exact fun _ _ => List.forall_mem_nil _
  | cons raw rest ih =>
      intro bs hbs
      have hraw : raw.Lists "successors" := block_requires.left bs hbs
      have hrest : ∀ r ∈ rest, r.Lists "successors" := Requires.right (fun _ => ih.left) bs hbs
      exact List.forall_mem_cons.mpr ⟨hraw, hrest⟩

theorem graph_requires :
    Requires (graph unit raw) (∀ block ∈ raw.entities "blocks", block.Lists "successors") := by
  intro g hg
  obtain ⟨raws, hraws, hg⟩ := (bind_eq_ok_iff _ _ g).mp hg
  rw [← items_eq_ok hraws]
  exact blocks_requires.left g hg

theorem function_requires :
    Requires (function unit raw)
      (raw.Lists "calls" ∧ ∀ block ∈ raw.entities "blocks", block.Lists "successors") := by
  intro f hf
  rw [function_eq] at hf
  refine ⟨?_, graph_requires.left f hf⟩
  exact Requires.right (fun _ => .right fun _ => names_requires.left) f hf

theorem criticalSection_requires :
    Requires (criticalSection unit raw) (raw.Lists "exit_blocks") :=
  .right fun _ => .right fun _ => .right fun _ => integers_requires.left

theorem captures_requires : Requires (captures raw) (raw.Maps "captures") := by
  intro cs h v hget
  rw [captures, hget] at h
  dsimp only at h
  split_ifs at h with hempty
  · exact .inl hempty
  · split at h
    next es => exact .inr ⟨es, rfl⟩
    next => exact absurd h (Reading.refuse_ne_ok _ _)

theorem task_requires : Requires (task unit raw) (raw.Maps "captures") := captures_requires.left

theorem timer_requires : Requires (timer unit raw) (raw.Lists "stop_blocks") :=
  .right fun _ => .right fun _ => .right fun _ => .right fun _ => integers_requires.left

end Read

namespace Document

variable {entries : Entries} {fallback : String}

theorem readEntries_requires : Requires (readEntries entries fallback) (Collected entries) := by
  refine .right fun unit => .right fun _ => ?_
  intro m hm
  have hlocks := (Read.each_requires fun _ => Read.lock_requires).left m hm
  obtain ⟨_, _, hm⟩ := (bind_eq_ok_iff _ _ m).mp hm
  have hfunctions := (Read.each_requires fun _ => Read.function_requires).left m hm
  obtain ⟨_, _, hm⟩ := (bind_eq_ok_iff _ _ m).mp hm
  have hsections := (Read.each_requires fun _ => Read.criticalSection_requires).left m hm
  obtain ⟨_, _, hm⟩ := (bind_eq_ok_iff _ _ m).mp hm
  have htasks := (Read.each_requires fun _ => Read.task_requires).left m hm
  have htimers := Requires.right (fun _ => .right fun _ => .right fun _ => .right fun _ =>
    (Read.each_requires fun _ => Read.timer_requires).left) m hm
  exact {
    protects := hlocks
    calls := fun f hf => (hfunctions f hf).1
    successors := fun f hf => (hfunctions f hf).2
    exits := hsections
    captures := htasks
    stops := htimers }

theorem read_requires (document : Value) (fallback : String) :
    Requires (read document fallback)
      (∃ entries, document = .mapping entries ∧ Collected entries) := by
  intro m hm
  cases document with
  | scalar s => exact absurd hm (Reading.refuse_ne_ok _ _)
  | list items => exact absurd hm (Reading.refuse_ne_ok _ _)
  | mapping entries =>
      exact ⟨entries, rfl, Requires.right (fun _ => readEntries_requires) m hm⟩

/-- **A collection of another kind is refused if it says something.** In a document that is read,
    each of these fields is a list or a mapping, or says nothing; and a document in which one of
    them is anything else is refused, unless a numeral in it is not converted. -/
theorem read_collected (document : Value) (fallback : String) :
    (∀ m, read document fallback = .ok m →
      ∃ entries, document = .mapping entries ∧ Collected entries)
    ∧ ∀ entries, document = .mapping entries → ¬ Collected entries →
      (∃ e, read document fallback = .error (.shape e))
        ∨ ∃ e, read document fallback = .error (.numeral e) ∧ Culprit document e := by
  refine ⟨read_requires document fallback, ?_⟩
  rintro entries rfl hnot
  cases h : read (.mapping entries) fallback with
  | ok m =>
      obtain ⟨entries', heq, hcollected⟩ := read_requires _ fallback m h
      obtain rfl := Value.mapping.inj heq
      exact absurd hcollected hnot
  | error e =>
      cases e with
      | shape e => exact .inl ⟨e, rfl⟩
      | numeral e => exact .inr ⟨e, rfl, read_breaksOnly _ fallback e h⟩

/-- A critical section with a value for its exits. -/
def sectionLeftAt (exits : Value) : Entries :=
  Entries.ofFields [("critical_sections", some (.list [.mapping (Entries.ofFields [
    ("lock", some (.text "mu")), ("function", some (.text "f")), ("exit_blocks", some exits)])]))]

theorem not_collected_sectionLeftAt_one : ¬ Collected (sectionLeftAt (.int 1)) := by
  intro h
  rcases h.exits _ List.mem_cons_self (.int 1) rfl with hempty | ⟨vs, hvs⟩
  · exact absurd hempty (by decide)
  · exact absurd hvs (by simp)

/-- A zero is read as no exits at all, where a one is refused. -/
theorem read_collected_sectionLeftAt :
    (∃ m, read (.mapping (sectionLeftAt (.int 0))) "u" = .ok m ∧ m.sections.map (·.exits) = [[]]
      ∧ Collected (sectionLeftAt (.int 0)))
    ∧ ∃ e, read (.mapping (sectionLeftAt (.int 1))) "u" = .error (.shape e) := by
  constructor
  · obtain ⟨entries, heq, hcollected⟩ :=
      (read_collected (.mapping (sectionLeftAt (.int 0))) "u").1 _ rfl
    obtain rfl := Value.mapping.inj heq
    exact ⟨_, rfl, rfl, hcollected⟩
  · have hread : read (.mapping (sectionLeftAt (.int 1))) "u"
        = .error (.shape (.notIntegerList "exit_blocks")) := rfl
    rcases (read_collected _ "u").2 _ rfl not_collected_sectionLeftAt_one with h | ⟨e, he, _⟩
    · exact h
    · simp [hread] at he

end Document

end Hazard
