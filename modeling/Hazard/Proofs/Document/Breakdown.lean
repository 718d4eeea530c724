import Hazard.Engine.DocumentFile
import Hazard.Proofs.Document.Place
import Hazard.Proofs.Document.RoundTrip
import Hazard.Yaml.Load

set_option autoImplicit false

/-! # Where the reading of a document breaks down

A document that does not describe a unit is refused, with an error of its shape. Otherwise reading
fails only where a numeral stands in it that is not converted. Either a number has too many digits
to be written in a name or in a message, or the text of a location has a row of digits that is too
long or is a row of characters that only look like digits.

The readers are taken apart once. `Reading.BreaksOnly` says for which numerals a reader can break
down, and it goes through the steps of a reader; a numeral to blame is one of a part of the
document, so the lemma of every reader has the same hypothesis, that what it reads occurs in the
document. -/

namespace Hazard

/-! ## The parts of a value -/

namespace Value

/-- A value is a part of another: the other itself, or a part of one of its items, keys and
    values. -/
inductive OccursIn (v : Value) : Value → Prop
  | self : OccursIn v v
  | item {w : Value} {items : List Value} (h : OccursIn v w) (hw : w ∈ items) :
      OccursIn v (.list items)
  | key {k : Scalar} {w : Value} {entries : Entries} (h : OccursIn v (.scalar k))
      (hw : (k, w) ∈ entries) : OccursIn v (.mapping entries)
  | entry {k : Scalar} {w : Value} {entries : Entries} (h : OccursIn v w)
      (hw : (k, w) ∈ entries) : OccursIn v (.mapping entries)

theorem OccursIn.trans {u v w : Value} (huv : u.OccursIn v) (hvw : v.OccursIn w) :
    u.OccursIn w := by
  induction hvw with
  | self => exact huv
  | item _ hw ih => exact ih.item hw
  | key _ hw ih => exact ih.key hw
  | entry _ hw ih => exact ih.entry hw

theorem isWritable_of_mem_items {items : List Value} {v : Value}
    (h : areItemsWritable items = true) (hv : v ∈ items) : v.isWritable = true := by
  induction items with
  | nil => simp at hv
  | cons w items ih =>
      rw [areItemsWritable, Bool.and_eq_true] at h
      rcases List.mem_cons.mp hv with rfl | hv
      · exact h.1
      · exact ih h.2 hv

theorem isWritable_of_mem_entries {entries : Entries} {k : Scalar} {v : Value}
    (h : areEntriesWritable entries = true) (hv : (k, v) ∈ entries) :
    k.isWritable = true ∧ v.isWritable = true := by
  induction entries with
  | nil => simp at hv
  | cons e entries ih =>
      obtain ⟨k', v'⟩ := e
      rw [areEntriesWritable, Bool.and_eq_true, Bool.and_eq_true] at h
      rcases List.mem_cons.mp hv with heq | hv
      · obtain ⟨rfl, rfl⟩ := Prod.mk.inj heq
        exact h.1
      · exact ih h.2 hv

/-- What can be shown has parts that can be shown. -/
theorem isWritable_of_occursIn {v w : Value} (h : v.OccursIn w) (hw : w.isWritable = true) :
    v.isWritable = true := by
  induction h with
  | self => exact hw
  | item _ hmem ih =>
      rw [isWritable] at hw
      exact ih (isWritable_of_mem_items hw hmem)
  | key _ hmem ih =>
      rw [isWritable] at hw
      refine ih ?_
      rw [isWritable]
      exact (isWritable_of_mem_entries hw hmem).1
  | entry _ hmem ih =>
      rw [isWritable] at hw
      exact ih (isWritable_of_mem_entries hw hmem).2

end Value

namespace Entries

theorem mem_of_get? {entries : Entries} {key : String} {v : Value}
    (h : entries.get? key = some v) : (.text key, v) ∈ entries := by
  fun_induction get? entries key with
  | case1 => simp at h
  | case2 k w rest hk =>
      obtain rfl := beq_iff_eq.mp hk
      obtain rfl := Option.some.inj h
      exact List.mem_cons_self
  | case3 k w rest hk ih => exact List.mem_cons_of_mem _ (ih h)
  | case4 e rest he ih => exact List.mem_cons_of_mem _ (ih h)

theorem occursIn_of_get? {entries : Entries} {key : String} {v : Value}
    (h : entries.get? key = some v) : v.OccursIn (.mapping entries) :=
  .entry .self (mem_of_get? h)

/-- The entities that are listed under a key. -/
def entities (raw : Entries) (key : String) : List Entries :=
  match raw.get? key with
  | some (.list values) =>
    values.filterMap fun
      | .mapping e => some e
      | _ => none
  | _ => []

theorem occursIn_of_mem_entities {raw e : Entries} {key : String} (h : e ∈ raw.entities key) :
    (Value.mapping e).OccursIn (.mapping raw) := by
  unfold entities at h
  split at h
  next values hget =>
    obtain ⟨v, hv, he⟩ := List.mem_filterMap.mp h
    split at he
    · obtain rfl := Option.some.inj he
      exact (Value.OccursIn.self.item hv).trans (occursIn_of_get? hget)
    · simp at he
  next => simp at h

end Entries

/-! ## Culprits -/

/-- What in a document is to blame for a numeral that is not converted. -/
inductive Document.Culprit (document : Value) : NumeralError → Prop
  /-- A number has too many digits to be written. -/
  | number (h : document.isWritable = false) : Culprit document .unwritable
  /-- A location has the form of one, but its digits are not read. -/
  | location {entries : Entries} {s : String} {e : NumeralError}
      (hin : (Value.mapping entries).OccursIn document)
      (hget : entries.get? "location" = some (.text s)) (hs : Location.Misread s e) :
      Culprit document e

theorem Document.culprit_of_isWritable_eq_false {document v : Value} (h : v.OccursIn document)
    (hv : v.isWritable = false) : Document.Culprit document .unwritable := by
  refine .number ?_
  by_contra hdocument
  rw [Value.isWritable_of_occursIn h (by simpa using hdocument)] at hv
  exact absurd hv (by decide)

/-! ## Readers -/

namespace Reading

variable {α β : Type} {P : NumeralError → Prop}

/-- A reader breaks down only for numerals of a kind. -/
def BreaksOnly (P : NumeralError → Prop) (r : Reading α) : Prop :=
  ∀ e, r = .error (.numeral e) → P e

theorem refuse_ne_ok (e : ShapeError) (a : α) : refuse e ≠ .ok a := by
  simp [refuse]

theorem breaksOnly_iff {r : Reading α} :
    BreaksOnly P r ↔ FailsOnly (fun f => ∀ e, f = .numeral e → P e) r := by
  constructor
  · intro h f hf e he
    exact h e (he ▸ hf)
  · intro h e he
    exact h _ he e rfl

theorem BreaksOnly.pure (a : α) : BreaksOnly P (pure a) :=
  breaksOnly_iff.mpr (.pure a)

theorem BreaksOnly.bind {r : Reading α} {f : α → Reading β} (hr : BreaksOnly P r)
    (hf : ∀ a, r = .ok a → BreaksOnly P (f a)) : BreaksOnly P (r >>= f) :=
  breaksOnly_iff.mpr ((breaksOnly_iff.mp hr).bind fun a ha => breaksOnly_iff.mp (hf a ha))

theorem BreaksOnly.mapM {f : α → Reading β} {xs : List α} (h : ∀ x ∈ xs, BreaksOnly P (f x)) :
    BreaksOnly P (xs.mapM f) :=
  breaksOnly_iff.mpr (.mapM fun x hx => breaksOnly_iff.mp (h x hx))

variable {document : Value}

theorem refuse_breaksOnly {e : ShapeError} (h : ∀ v ∈ e.shows, v.OccursIn document) :
    BreaksOnly (Document.Culprit document) (refuse e : Reading α) := by
  intro n hn
  unfold refuse at hn
  have herror := Except.error.inj hn
  split_ifs at herror with hshows
  obtain rfl := DocumentError.numeral.inj herror
  obtain ⟨v, hv, hwritable⟩ : ∃ v ∈ e.shows, v.isWritable = false := by simpa using hshows
  exact Document.culprit_of_isWritable_eq_false (h v hv) hwritable

theorem name_breaksOnly {v : Value} (h : v.OccursIn document) :
    BreaksOnly (Document.Culprit document) (name v) := by
  intro n hn
  unfold name Value.written at hn
  split_ifs at hn with hwritable
  · exact absurd hn (by simp [pure, Except.pure, Except.mapError])
  · obtain rfl := DocumentError.numeral.inj (Except.error.inj hn)
    exact Document.culprit_of_isWritable_eq_false h (by simpa using hwritable)

end Reading

namespace Field

open Reading (BreaksOnly refuse_breaksOnly name_breaksOnly)
open Document (Culprit)

variable {document : Value} {raw : Entries} {key : String}

theorem mappings_eq_ok {index : Nat} {values : List Value} {es : List Entries}
    (h : mappings key index values = .ok es) :
    es = values.filterMap fun
      | .mapping e => some e
      | _ => none := by
  fun_induction mappings key index values generalizing es with
  | case1 => exact ((pure_eq_ok_iff _ _).mp h).symm
  | case2 index entries rest ih =>
      obtain ⟨es', hrest, hes⟩ := (bind_eq_ok_iff _ _ _).mp h
      obtain rfl := (pure_eq_ok_iff _ _).mp hes
      rw [ih hrest]
      rfl
  | case3 => exact absurd h (Reading.refuse_ne_ok _ _)

theorem items_eq_ok {es : List Entries} (h : items raw key = .ok es) : es = raw.entities key := by
  unfold items at h
  unfold Entries.entities
  split at h
  next hget =>
    obtain rfl := (pure_eq_ok_iff _ _).mp h
    rw [hget]
  next hget =>
    obtain rfl := (pure_eq_ok_iff _ _).mp h
    rw [hget]
  next values hget =>
    rw [hget]
    exact mappings_eq_ok h
  next => exact absurd h (Reading.refuse_ne_ok _ _)

theorem occursIn_of_mem_items {es : List Entries} (h : items raw key = .ok es) {e : Entries}
    (he : e ∈ es) : (Value.mapping e).OccursIn (.mapping raw) := by
  rw [items_eq_ok h] at he
  exact Entries.occursIn_of_mem_entities he

theorem mappings_breaksOnly (index : Nat) (values : List Value) :
    BreaksOnly (Culprit document) (mappings key index values) := by
  fun_induction mappings key index values with
  | case1 => exact .pure []
  | case2 index entries rest ih => exact ih.bind fun _ _ => .pure _
  | case3 => exact refuse_breaksOnly (List.forall_mem_nil _)

theorem items_breaksOnly : BreaksOnly (Culprit document) (items raw key) := by
  rw [items]
  split
  · exact .pure []
  · exact .pure []
  · exact mappings_breaksOnly 0 _
  · exact refuse_breaksOnly (List.forall_mem_nil _)

theorem listed_breaksOnly {e : ShapeError} (he : ∀ v ∈ e.shows, v.OccursIn document) :
    BreaksOnly (Culprit document) (listed raw key e) := by
  unfold listed
  split
  next => exact .pure _
  next v hget =>
    split_ifs
    · exact .pure _
    · split
      · exact .pure _
      · exact refuse_breaksOnly he

theorem member_breaksOnly {α : Type} [Worded α] {v : Value} (hv : v.OccursIn document) :
    BreaksOnly (Culprit document) (member key v : Reading α) := by
  unfold member
  split
  next s =>
    split
    · exact .pure _
    · exact refuse_breaksOnly (List.forall_mem_singleton.mpr hv)
  next => exact refuse_breaksOnly (List.forall_mem_singleton.mpr hv)

section

variable (h : (Value.mapping raw).OccursIn document)

include h

theorem occursIn_of_get? {v : Value} (hv : raw.get? key = some v) : v.OccursIn document :=
  (Entries.occursIn_of_get? hv).trans h

theorem text_breaksOnly {default : Option String} :
    BreaksOnly (Culprit document) (text raw key default) := by
  unfold text
  split
  next => exact refuse_breaksOnly (List.forall_mem_nil _)
  next v _ hget => exact name_breaksOnly (occursIn_of_get? h hget)
  next =>
    split
    · exact .pure _
    · exact refuse_breaksOnly (List.forall_mem_nil _)

theorem textOr_breaksOnly {default : String} :
    BreaksOnly (Culprit document) (textOr raw key default) := by
  unfold textOr
  split
  next => exact .pure _
  next v hget => exact name_breaksOnly (occursIn_of_get? h hget)

theorem optionalText_breaksOnly : BreaksOnly (Culprit document) (optionalText raw key) := by
  unfold optionalText
  split
  next => exact .pure _
  next => exact .pure _
  next v _ hget => exact (name_breaksOnly (occursIn_of_get? h hget)).bind fun _ _ => .pure _

theorem flag_breaksOnly {default : Bool} :
    BreaksOnly (Culprit document) (flag raw key default) := by
  unfold flag
  split
  next => exact .pure _
  next => exact .pure _
  next v _ hget =>
    exact refuse_breaksOnly (List.forall_mem_singleton.mpr (occursIn_of_get? h hget))

theorem integer_breaksOnly : BreaksOnly (Culprit document) (integer raw key) := by
  unfold integer
  split
  next => exact .pure _
  next => exact .pure _
  next v _ hget =>
    exact refuse_breaksOnly (List.forall_mem_singleton.mpr (occursIn_of_get? h hget))

theorem optionalInteger_breaksOnly :
    BreaksOnly (Culprit document) (optionalInteger raw key) := by
  unfold optionalInteger
  split
  next => exact .pure _
  next => exact .pure _
  next => exact .pure _
  next v _ _ hget =>
    exact refuse_breaksOnly (List.forall_mem_singleton.mpr (occursIn_of_get? h hget))

theorem occursIn_of_mem_listed {e : ShapeError} {vs : List Value} (hvs : listed raw key e = .ok vs)
    {v : Value} (hv : v ∈ vs) : v.OccursIn document := by
  unfold listed at hvs
  split at hvs
  next =>
    obtain rfl := (pure_eq_ok_iff _ _).mp hvs
    simp at hv
  next value hget =>
    split_ifs at hvs
    · obtain rfl := (pure_eq_ok_iff _ _).mp hvs
      simp at hv
    · split at hvs
      · obtain rfl := (pure_eq_ok_iff _ _).mp hvs
        exact (Value.OccursIn.self.item hv).trans (occursIn_of_get? h hget)
      · exact absurd hvs (by simp [Reading.refuse])

theorem integers_breaksOnly : BreaksOnly (Culprit document) (integers raw key) := by
  refine (listed_breaksOnly (List.forall_mem_nil _)).bind fun vs hvs => ?_
  refine .mapM fun v hv => ?_
  split
  · exact .pure _
  · exact refuse_breaksOnly (List.forall_mem_singleton.mpr (occursIn_of_mem_listed h hvs hv))

theorem names_breaksOnly : BreaksOnly (Culprit document) (names raw key) :=
  (listed_breaksOnly (List.forall_mem_nil _)).bind fun _ hvs => .mapM fun _ hv =>
    name_breaksOnly (occursIn_of_mem_listed h hvs hv)

theorem choice_breaksOnly {α : Type} [Worded α] {default : α} :
    BreaksOnly (Culprit document) (choice raw key default) := by
  unfold choice
  split
  next => exact .pure _
  next v hget => exact member_breaksOnly (occursIn_of_get? h hget)

theorem optionalChoice_breaksOnly {α : Type} [Worded α] :
    BreaksOnly (Culprit document) (optionalChoice raw key : Reading (Option α)) := by
  unfold optionalChoice
  split
  next => exact .pure _
  next => exact .pure _
  next v _ hget => exact (member_breaksOnly (occursIn_of_get? h hget)).bind fun _ _ => .pure _

theorem location_breaksOnly {unit : String} :
    BreaksOnly (Culprit document) (location unit raw) := by
  unfold location
  split
  next => exact .pure _
  next => exact .pure _
  next => exact refuse_breaksOnly (List.forall_mem_nil _)
  next => exact .pure _
  next place hget =>
    have hplace : (Value.mapping place).OccursIn document := occursIn_of_get? h hget
    exact (textOr_breaksOnly hplace).bind fun _ _ => (integer_breaksOnly hplace).bind fun _ _ =>
      (integer_breaksOnly hplace).bind fun _ _ => .pure _
  next s hget =>
    split
    next e hs =>
      intro n hn
      obtain rfl := DocumentError.numeral.inj (Except.error.inj hn)
      exact .location h hget (Location.misread_of_ofText_eq_error hs)
    next => exact .pure _
    next => exact refuse_breaksOnly (List.forall_mem_singleton.mpr (occursIn_of_get? h hget))
  next v _ _ _ _ _ hget =>
    exact refuse_breaksOnly (List.forall_mem_singleton.mpr (occursIn_of_get? h hget))

theorem waiver_breaksOnly {unit : String} : BreaksOnly (Culprit document) (waiver unit raw) := by
  unfold waiver
  dsimp only
  generalize (if (raw.get? "rule").isSome then "rule" else "rule_id") = ruleKey
  split_ifs
  · refine BreaksOnly.bind (refuse_breaksOnly (List.forall_mem_nil _)) fun a ha => ?_
    exact absurd ha (Reading.refuse_ne_ok _ a)
  · exact (optionalText_breaksOnly h).bind fun _ _ => (optionalText_breaksOnly h).bind fun _ _ =>
      (textOr_breaksOnly h).bind fun _ _ => (location_breaksOnly h).bind fun _ _ => .pure _

theorem waivers_breaksOnly {unit : String} : BreaksOnly (Culprit document) (waivers unit raw) :=
  items_breaksOnly.bind fun _ hes => .mapM fun _ he =>
    waiver_breaksOnly ((occursIn_of_mem_items hes he).trans h)

end

end Field

namespace Read

open Reading (BreaksOnly refuse_breaksOnly name_breaksOnly)
open Document (Culprit)
open Hazard.Field

variable {document : Value} {raw : Entries} {unit : String}

section

variable (h : (Value.mapping raw).OccursIn document)

include h

theorem each_breaksOnly {α : Type} {key : String} {read : Entries → Reading α}
    (hread : ∀ e : Entries, (Value.mapping e).OccursIn document →
      BreaksOnly (Culprit document) (read e)) :
    BreaksOnly (Culprit document) (each raw key read) :=
  items_breaksOnly.bind fun _ hes => .mapM fun e he =>
    hread e ((occursIn_of_mem_items hes he).trans h)

theorem binding_breaksOnly : BreaksOnly (Culprit document) (binding unit raw) :=
  (text_breaksOnly h).bind fun _ _ => (flag_breaksOnly h).bind fun _ _ =>
    (choice_breaksOnly h).bind fun _ _ => (text_breaksOnly h).bind fun _ _ =>
    (location_breaksOnly h).bind fun _ _ => (waivers_breaksOnly h).bind fun _ _ => .pure _

theorem lock_breaksOnly : BreaksOnly (Culprit document) (lock unit raw) :=
  (text_breaksOnly h).bind fun _ _ => (choice_breaksOnly h).bind fun _ _ =>
    (names_breaksOnly h).bind fun _ _ => (location_breaksOnly h).bind fun _ _ => .pure _

theorem block_breaksOnly {number : Nat} :
    BreaksOnly (Culprit document) (block unit number raw) :=
  (integers_breaksOnly h).bind fun _ _ => (optionalChoice_breaksOnly h).bind fun _ _ =>
    (location_breaksOnly h).bind fun _ _ => (optionalText_breaksOnly h).bind fun _ _ => .pure _

omit h in
theorem blocks_breaksOnly (number : Nat) (raws : List Entries)
    (hraws : ∀ e ∈ raws, (Value.mapping e).OccursIn document) :
    BreaksOnly (Culprit document) (blocks unit number raws) := by
  induction raws generalizing number with
  | nil => exact .pure []
  | cons raw rest ih =>
      have hrest := ih (number + 1) fun e he => hraws e (List.mem_cons_of_mem _ he)
      exact (block_breaksOnly (hraws raw List.mem_cons_self)).bind fun _ _ =>
        hrest.bind fun _ _ => .pure _

theorem graph_breaksOnly : BreaksOnly (Culprit document) (graph unit raw) := by
  refine items_breaksOnly.bind fun raws hraws => ?_
  refine (blocks_breaksOnly 0 raws fun e he =>
    (occursIn_of_mem_items hraws he).trans h).bind fun bs _ => ?_
  split
  · exact .pure _
  · exact (integer_breaksOnly h).bind fun _ _ => .pure _

theorem access_breaksOnly : BreaksOnly (Culprit document) (access unit raw) :=
  (text_breaksOnly h).bind fun _ _ => (choice_breaksOnly h).bind fun _ _ =>
    (integer_breaksOnly h).bind fun _ _ => (location_breaksOnly h).bind fun _ _ =>
    (waivers_breaksOnly h).bind fun _ _ => .pure _

theorem returnSite_breaksOnly : BreaksOnly (Culprit document) (returnSite unit raw) :=
  (integer_breaksOnly h).bind fun _ _ => (optionalText_breaksOnly h).bind fun _ _ =>
    (flag_breaksOnly h).bind fun _ _ => (location_breaksOnly h).bind fun _ _ =>
    (waivers_breaksOnly h).bind fun _ _ => .pure _

theorem function_breaksOnly : BreaksOnly (Culprit document) (function unit raw) := by
  rw [function_eq]
  exact (graph_breaksOnly h).bind fun _ _ => (text_breaksOnly h).bind fun _ _ =>
    (names_breaksOnly h).bind fun _ _ =>
    (each_breaksOnly h fun _ => access_breaksOnly).bind fun _ _ =>
    (each_breaksOnly h fun _ => returnSite_breaksOnly).bind fun _ _ =>
    (location_breaksOnly h).bind fun _ _ => (waivers_breaksOnly h).bind fun _ _ => .pure _

theorem criticalSection_breaksOnly :
    BreaksOnly (Culprit document) (criticalSection unit raw) :=
  (text_breaksOnly h).bind fun _ _ => (text_breaksOnly h).bind fun _ _ =>
    (integer_breaksOnly h).bind fun _ _ => (integers_breaksOnly h).bind fun _ _ =>
    (flag_breaksOnly h).bind fun _ _ => (flag_breaksOnly h).bind fun _ _ =>
    (integer_breaksOnly h).bind fun _ _ => (location_breaksOnly h).bind fun _ _ =>
    (waivers_breaksOnly h).bind fun _ _ => .pure _

omit h in
theorem capture_breaksOnly {k : Scalar} {v : Value} (hk : (Value.scalar k).OccursIn document)
    (hv : v.OccursIn document) : BreaksOnly (Culprit document) (capture (k, v)) := by
  have hshows : ∀ w ∈ (ShapeError.badCapture k v).shows, w.OccursIn document :=
    List.forall_mem_cons.mpr ⟨hk, List.forall_mem_singleton.mpr hv⟩
  unfold capture
  split
  next s _ =>
    split
    · exact (name_breaksOnly hk).bind fun _ _ => .pure _
    · exact refuse_breaksOnly hshows
  next => exact refuse_breaksOnly hshows

theorem captures_breaksOnly : BreaksOnly (Culprit document) (captures raw) := by
  unfold captures
  split
  next => exact .pure _
  next value hget =>
    split_ifs
    · exact .pure _
    · split
      next _ entries _ =>
        have hentries : (Value.mapping entries).OccursIn document := occursIn_of_get? h hget
        refine .mapM fun entry hentry => capture_breaksOnly ?_ ?_
        · exact (Value.OccursIn.self.key hentry).trans hentries
        · exact (Value.OccursIn.self.entry hentry).trans hentries
      next => exact refuse_breaksOnly (List.forall_mem_nil _)

theorem task_breaksOnly : BreaksOnly (Culprit document) (task unit raw) :=
  (captures_breaksOnly h).bind fun _ _ => (text_breaksOnly h).bind fun _ _ =>
    (text_breaksOnly h).bind fun _ _ => (flag_breaksOnly h).bind fun _ _ =>
    (location_breaksOnly h).bind fun _ _ => .pure _

theorem registration_breaksOnly : BreaksOnly (Culprit document) (registration unit raw) :=
  (text_breaksOnly h).bind fun _ _ => (text_breaksOnly h).bind fun _ _ =>
    (location_breaksOnly h).bind fun _ _ => .pure _

theorem channel_breaksOnly : BreaksOnly (Culprit document) (channel unit raw) :=
  (text_breaksOnly h).bind fun _ _ => (choice_breaksOnly h).bind fun _ _ =>
    (optionalInteger_breaksOnly h).bind fun _ _ => (location_breaksOnly h).bind fun _ _ =>
    (waivers_breaksOnly h).bind fun _ _ => .pure _

theorem mapOperation_breaksOnly : BreaksOnly (Culprit document) (mapOperation unit raw) :=
  (choice_breaksOnly h).bind fun _ _ => (text_breaksOnly h).bind fun _ _ =>
    (text_breaksOnly h).bind fun _ _ => (integer_breaksOnly h).bind fun _ _ =>
    (optionalInteger_breaksOnly h).bind fun _ _ => (location_breaksOnly h).bind fun _ _ =>
    (waivers_breaksOnly h).bind fun _ _ => .pure _

theorem concurrentMap_breaksOnly : BreaksOnly (Culprit document) (concurrentMap unit raw) := by
  rw [concurrentMap_eq]
  exact (text_breaksOnly h).bind fun _ _ =>
    (each_breaksOnly h fun _ => mapOperation_breaksOnly).bind fun _ _ =>
    (location_breaksOnly h).bind fun _ _ => (waivers_breaksOnly h).bind fun _ _ => .pure _

theorem timer_breaksOnly : BreaksOnly (Culprit document) (timer unit raw) :=
  (text_breaksOnly h).bind fun _ _ => (text_breaksOnly h).bind fun _ _ =>
    (choice_breaksOnly h).bind fun _ _ => (integer_breaksOnly h).bind fun _ _ =>
    (integers_breaksOnly h).bind fun _ _ => (flag_breaksOnly h).bind fun _ _ =>
    (location_breaksOnly h).bind fun _ _ => (waivers_breaksOnly h).bind fun _ _ => .pure _

theorem instant_breaksOnly : BreaksOnly (Culprit document) (instant unit raw) :=
  (text_breaksOnly h).bind fun _ _ => (flag_breaksOnly h).bind fun _ _ =>
    (optionalText_breaksOnly h).bind fun _ _ => (optionalText_breaksOnly h).bind fun _ _ =>
    (location_breaksOnly h).bind fun _ _ => .pure _

theorem comparison_breaksOnly : BreaksOnly (Culprit document) (comparison unit raw) :=
  (choice_breaksOnly h).bind fun _ _ => (text_breaksOnly h).bind fun _ _ =>
    (text_breaksOnly h).bind fun _ _ => (flag_breaksOnly h).bind fun _ _ =>
    (flag_breaksOnly h).bind fun _ _ => (location_breaksOnly h).bind fun _ _ =>
    (waivers_breaksOnly h).bind fun _ _ => .pure _

theorem elapsed_breaksOnly : BreaksOnly (Culprit document) (elapsed unit raw) :=
  (text_breaksOnly h).bind fun _ _ => (location_breaksOnly h).bind fun _ _ =>
    (waivers_breaksOnly h).bind fun _ _ => .pure _

end

end Read

/-! ## Documents -/

namespace Document

open Reading (BreaksOnly refuse_breaksOnly name_breaksOnly)

variable {entries : Entries}

theorem unknownKeys_breaksOnly :
    BreaksOnly (Culprit (.mapping entries)) (unknownKeys entries) := by
  refine BreaksOnly.bind (.mapM fun entry hentry => ?_) fun _ _ => .pure _
  exact name_breaksOnly (Value.OccursIn.self.key (List.mem_filter.mp hentry).1)

theorem unitName_breaksOnly {fallback : String} :
    BreaksOnly (Culprit (.mapping entries)) (unitName entries fallback) := by
  unfold unitName
  split
  next => exact .pure _
  next v hget =>
    split_ifs
    · exact .pure _
    · exact name_breaksOnly (Entries.occursIn_of_get? hget)

theorem readEntries_breaksOnly {fallback : String} :
    BreaksOnly (Culprit (.mapping entries)) (readEntries entries fallback) := by
  have h : (Value.mapping entries).OccursIn (.mapping entries) := .self
  exact unitName_breaksOnly.bind fun unit _ =>
    (Read.each_breaksOnly h fun _ => Read.binding_breaksOnly).bind fun _ _ =>
    (Read.each_breaksOnly h fun _ => Read.lock_breaksOnly).bind fun _ _ =>
    (Read.each_breaksOnly h fun _ => Read.function_breaksOnly).bind fun _ _ =>
    (Read.each_breaksOnly h fun _ => Read.criticalSection_breaksOnly).bind fun _ _ =>
    (Read.each_breaksOnly h fun _ => Read.task_breaksOnly).bind fun _ _ =>
    (Read.each_breaksOnly h fun _ => Read.registration_breaksOnly).bind fun _ _ =>
    (Read.each_breaksOnly h fun _ => Read.channel_breaksOnly).bind fun _ _ =>
    (Read.each_breaksOnly h fun _ => Read.concurrentMap_breaksOnly).bind fun _ _ =>
    (Read.each_breaksOnly h fun _ => Read.timer_breaksOnly).bind fun _ _ =>
    (Read.each_breaksOnly h fun _ => Read.instant_breaksOnly).bind fun _ _ =>
    (Read.each_breaksOnly h fun _ => Read.comparison_breaksOnly).bind fun _ _ =>
    (Read.each_breaksOnly h fun _ => Read.elapsed_breaksOnly).bind fun _ _ =>
    (Field.waivers_breaksOnly h).bind fun _ _ => .pure _

theorem read_breaksOnly (document : Value) (fallback : String) :
    BreaksOnly (Culprit document) (read document fallback) := by
  cases document with
  | scalar s => exact refuse_breaksOnly (List.forall_mem_nil _)
  | list items => exact refuse_breaksOnly (List.forall_mem_nil _)
  | mapping entries => exact unknownKeys_breaksOnly.bind fun _ _ => readEntries_breaksOnly

/-- **A document is read or refused, unless a numeral in it is not converted.** The document then
    shows the numeral that is to blame. Whatever the files and the loader are, a file with a value
    in it breaks the front-end only through such a numeral. How deeply values are nested is no matter
    here; where the stack of a reader is bounded, it can also run out. -/
theorem read_or_refused (document : Value) (fallback : String) :
    ((∃ m, read document fallback = .ok m) ∨ (∃ e, read document fallback = .error (.shape e))
      ∨ ∃ e, read document fallback = .error (.numeral e) ∧ Culprit document e)
    ∧ ∀ (files : Files) (loader : Loader) (path : String) (bytes : List UInt8),
      files path = .ok bytes → loader bytes = .ok document →
        (∃ i, (Ingestion.ofFile files loader path).result = .ok i)
        ∨ ∃ e, (Ingestion.ofFile files loader path).result = .error (.ofNumeral e)
          ∧ Culprit document e := by
  constructor
  · cases h : read document fallback with
    | ok m => exact .inl ⟨m, rfl⟩
    | error e =>
        cases e with
        | shape e => exact .inr (.inl ⟨e, rfl⟩)
        | numeral e => exact .inr (.inr ⟨e, rfl, read_breaksOnly document fallback e h⟩)
  · intro files loader path bytes hbytes hdocument
    rw [Ingestion.ofFile, hbytes]
    simp only [hdocument, Ingestion.ofFileDocument]
    cases h : read document path with
    | ok m => exact .inl ⟨.model m, rfl⟩
    | error e =>
        cases e with
        | shape e => exact .inl ⟨_, rfl⟩
        | numeral e => exact .inr ⟨e, rfl, read_breaksOnly document path e h⟩

/-- A location that looks like a number and has no value. -/
def superscript : Value :=
  .record [("annotations", .list [.record [("marker", .text "m"), ("location", .text "²")]])]

/-- The same document in a file. -/
def superscriptFile : List UInt8 := "annotations: [\x7bmarker: m, location: ²\x7d]".toUTF8.toList

theorem read_or_refused_superscript :
    (∃ e, read superscript "u" = .error (.numeral e) ∧ Culprit superscript e)
    ∧ ∃ document e, Yaml.loader superscriptFile = .ok document
      ∧ (Ingestion.ofFile (fun _ => .ok superscriptFile) Yaml.loader "u.yml").result
        = .error (.ofNumeral e)
      ∧ Culprit document e := by
  constructor
  · have hread : read superscript "u" = .error (.numeral (.invalid 10 "²")) := by rfl
    rcases (read_or_refused superscript "u").1 with ⟨m, h⟩ | ⟨e, h⟩ | h
    · exact absurd (hread.symm.trans h) (by simp)
    · exact absurd (hread.symm.trans h) (by simp)
    · exact h
  · let files : Files := fun _ => .ok superscriptFile
    have hloads : (Yaml.loader superscriptFile).toOption.isSome = true := by decide +kernel
    have hbreaks : (Ingestion.ofFile files Yaml.loader "u.yml").result.toOption.isNone = true := by
      decide +kernel
    cases hdocument : Yaml.loader superscriptFile with
    | error e => simp [hdocument, Except.toOption] at hloads
    | ok document =>
        obtain ⟨_, hfile⟩ := read_or_refused document "u"
        rcases hfile files Yaml.loader "u.yml" _ rfl hdocument with ⟨i, hi⟩ | ⟨e, he⟩
        · simp [hi, Except.toOption] at hbreaks
        · exact ⟨document, e, rfl, he⟩

end Document

end Hazard
