import Hazard.Engine.Ingest
import Hazard.Proofs.Document.Written
import Hazard.Proofs.Except

set_option autoImplicit false

/-! # Reading what has been written

A document that has been written from the facts about a unit is read as these facts. The reader is
made of one reader for each kind of field, so the proof is made of one lemma for each of these:
where the field holds what is written for a value, the reader returns the value. What is left for an
entity is that the writer puts each field under the key under which the reader looks for it, which
is the last line of each proof. -/

namespace Hazard

/-- The words of an enumeration tell its members apart. -/
class LawfulWorded (α : Type) [Worded α] : Prop where
  ofWord?_word : ∀ a : α, Worded.ofWord? (Worded.word a) = some a

instance : LawfulWorded Category := ⟨fun a => by cases a <;> rfl⟩
instance : LawfulWorded LockKind := ⟨fun a => by cases a <;> rfl⟩
instance : LawfulWorded ExitKind := ⟨fun a => by cases a <;> rfl⟩
instance : LawfulWorded AccessKind := ⟨fun a => by cases a <;> rfl⟩
instance : LawfulWorded CaptureMode := ⟨fun a => by cases a <;> rfl⟩
instance : LawfulWorded Capacity := ⟨fun a => by cases a <;> rfl⟩
instance : LawfulWorded MapAction := ⟨fun a => by cases a <;> rfl⟩
instance : LawfulWorded TimerKind := ⟨fun a => by cases a <;> rfl⟩
instance : LawfulWorded ComparisonOperator := ⟨fun a => by cases a <;> rfl⟩

/-! ## Fields -/

namespace Field

variable {raw : Entries} {key : String}

theorem text_of_get? (s : String) {default : Option String} (h : raw.get? key = some (.text s)) :
    text raw key default = .ok s := by
  unfold text
  rw [h]
  rfl

theorem textOr_of_get? (s : String) {default : String} (h : raw.get? key = some (.text s)) :
    textOr raw key default = .ok s := by
  rw [textOr, h]
  rfl

theorem optionalText_of_get? (s : Option String) (h : raw.get? key = s.map .text) :
    optionalText raw key = .ok s := by
  rw [optionalText, h]
  cases s with
  | none => rfl
  | some s => rfl

theorem flag_of_get? (b : Bool) {default : Bool} (h : raw.get? key = some (.bool b)) :
    flag raw key default = .ok b := by
  rw [flag, h]
  rfl

theorem integer_of_get? (n : Int) (h : raw.get? key = some (.int n)) :
    integer raw key = .ok n := by
  rw [integer, h]
  rfl

theorem optionalInteger_of_get? (n : Option Int) (h : raw.get? key = n.map .int) :
    optionalInteger raw key = .ok n := by
  rw [optionalInteger, h]
  cases n with
  | none => rfl
  | some n => rfl

theorem member_written {α : Type} [Worded α] [LawfulWorded α] (key : String) (a : α) :
    member key (Write.member a) = .ok a := by
  unfold member Write.member
  simp only [LawfulWorded.ofWord?_word]
  rfl

theorem choice_of_get? {α : Type} [Worded α] [LawfulWorded α] (a : α) {default : α}
    (h : raw.get? key = some (Write.member a)) : choice raw key default = .ok a := by
  rw [choice, h]
  exact member_written key a

theorem optionalChoice_of_get? {α : Type} [Worded α] [LawfulWorded α] (a : Option α)
    (h : raw.get? key = a.map Write.member) : optionalChoice raw key = .ok a := by
  rw [optionalChoice, h]
  cases a with
  | none => rfl
  | some a =>
      show (member key (Write.member a) >>= fun a => pure (some a)) = .ok (some a)
      rw [member_written]
      rfl

/-- An empty list says nothing, and is read as a list all the same. -/
theorem listed_of_get? (vs : List Value) {e : ShapeError} (h : raw.get? key = some (.list vs)) :
    listed raw key e = .ok vs := by
  rw [listed, h]
  cases vs with
  | nil => rfl
  | cons v vs => rfl

theorem integers_of_get? (ns : List Int) (h : raw.get? key = some (Write.integers ns)) :
    integers raw key = .ok ns := by
  rw [integers, listed_of_get? _ h]
  exact mapM_map_eq_ok fun n _ => rfl

theorem names_of_get? (ns : List String) (h : raw.get? key = some (.texts ns)) :
    names raw key = .ok ns := by
  rw [names, listed_of_get? _ h]
  exact mapM_map_eq_ok fun n _ => rfl

theorem mappings_map (key : String) (index : Nat) (xs : List Entries) :
    mappings key index (xs.map .mapping) = .ok xs := by
  induction xs generalizing index with
  | nil => rfl
  | cons x xs ih =>
      rw [List.map_cons, mappings, ih]
      rfl

theorem items_of_get? {α : Type} {write : α → Entries} (xs : List α)
    (h : raw.get? key = some (Write.entities write xs)) : items raw key = .ok (xs.map write) := by
  rw [items, h]
  exact mappings_map key 0 (xs.map write)

theorem location_of_get? {unit : String} (loc : Option Location)
    (h : raw.get? "location" = loc.map Write.location) : location unit raw = .ok loc := by
  rw [location, h]
  cases loc with
  | none => rfl
  | some loc =>
      simp only [Option.map_some, Write.location]
      rw [textOr_of_get? loc.file, integer_of_get? loc.line, integer_of_get? loc.column]
      · rfl
      all_goals simp

theorem isVoid_of_get? {s : Option String} (h : raw.get? key = s.map .text) :
    isVoid raw key = s.isNone := by
  rw [isVoid, h]
  cases s with
  | none => rfl
  | some s => rfl

theorem waiver_written {unit : String} {a : Waiver} (h : a.Marked) :
    waiver unit (Write.waiver a) = .ok a := by
  have hmarker : (Write.waiver a).get? "marker" = a.marker.map .text := by simp [Write.waiver]
  -- Without a rule the reader turns to the other key, under which nothing is written.
  have hrule : (Write.waiver a).get?
      (if ((Write.waiver a).get? "rule").isSome then "rule" else "rule_id")
        = a.rule.map .text := by
    cases hr : a.rule with
    | none => simp [Write.waiver, hr]
    | some r => simp [Write.waiver, hr]
  have hmarked : (a.rule.isNone && a.marker.isNone) = false := by
    rcases h with h | h
    · simp [Option.isNone_eq_false_iff.mpr h]
    · simp [Option.isNone_eq_false_iff.mpr h]
  unfold waiver
  simp only [isVoid_of_get? hrule, isVoid_of_get? hmarker, hmarked, optionalText_of_get? _ hrule,
    optionalText_of_get? _ hmarker]
  rw [textOr_of_get? a.justification, location_of_get? a.location]
  · rfl
  all_goals simp [Write.waiver]

theorem waivers_of_get? {unit : String} (as : List Waiver)
    (h : raw.get? "annotations" = some (Write.waivers as)) (hmarked : ∀ a ∈ as, a.Marked) :
    waivers unit raw = .ok as := by
  rw [waivers, items_of_get? _ h]
  exact mapM_map_eq_ok fun a ha => waiver_written (hmarked a ha)

end Field

/-! ## Entities -/

namespace Read

open Hazard.Field

variable {unit : String}

theorem each_of_get? {α : Type} {raw : Entries} {key : String} {write : α → Entries}
    {read : Entries → Reading α} (xs : List α)
    (hread : ∀ x ∈ xs, read (write x) = .ok x)
    (h : raw.get? key = some (Write.entities write xs)) : each raw key read = .ok xs := by
  rw [each, items_of_get? _ h]
  exact mapM_map_eq_ok hread

theorem binding_written {b : Binding} (h : ∀ a ∈ b.waivers, a.Marked) :
    binding unit (Write.binding b) = .ok b := by
  rw [binding, text_of_get? b.name, flag_of_get? b.mutable, choice_of_get? b.category,
    text_of_get? b.scope, location_of_get? b.location, waivers_of_get? b.waivers _ h]
  · rfl
  all_goals simp [Write.binding]

theorem lock_written (l : Lock) : lock unit (Write.lock l) = .ok l := by
  rw [lock, text_of_get? l.name, choice_of_get? l.kind, names_of_get? l.protects,
    location_of_get? l.location]
  · rfl
  all_goals simp [Write.lock]

/-- The number of a block is not written; it is given back by the position. -/
theorem block_written {b : Block} {number : Nat} (h : b.number = number) :
    block unit number (Write.block b) = .ok b := by
  rw [block, integers_of_get? b.successors, optionalChoice_of_get? b.exit,
    location_of_get? b.location, optionalText_of_get? b.label]
  · rw [← h]
    rfl
  all_goals simp [Write.block]

theorem blocks_written (bs : List Block) (number : Nat)
    (h : ∀ (i : Nat) (b : Block), bs[i]? = some b → b.number = ((number + i : Nat) : Int)) :
    blocks unit number (bs.map Write.block) = .ok bs := by
  induction bs generalizing number with
  | nil => rfl
  | cons b bs ih =>
      have hb : b.number = number := h 0 b rfl
      have hrest : blocks unit (number + 1) (bs.map Write.block) = .ok bs := by
        refine ih (number + 1) fun i c hc => ?_
        rw [h (i + 1) c hc, Nat.add_right_comm number 1 i, Nat.add_assoc]
      rw [List.map_cons, blocks, block_written hb, hrest]
      rfl

theorem graph_written {f : Function} (h : f.graph.Numbered) :
    graph unit (Write.function f) = .ok f.graph := by
  have hblocks : blocks unit 0 (f.graph.blocks.toList.map Write.block)
      = .ok f.graph.blocks.toList := by
    refine blocks_written f.graph.blocks.toList 0 fun i b hb => ?_
    rw [Array.getElem?_toList] at hb
    rw [h.number i b hb, Nat.zero_add]
  have hitems : items (Write.function f) "blocks" = .ok (f.graph.blocks.toList.map Write.block) :=
    items_of_get? _ (by simp [Write.function])
  have hentry : integer (Write.function f) "entry" = .ok f.graph.entry :=
    integer_of_get? _ (by simp [Write.function])
  have hne : f.graph.blocks.toList ≠ [] := by
    rw [← List.length_pos_iff, Array.length_toList]
    exact h.nonempty
  rw [graph, hitems]
  show (blocks unit 0 (f.graph.blocks.toList.map Write.block) >>= _) = _
  rw [hblocks]
  cases hlist : f.graph.blocks.toList with
  | nil => exact absurd hlist hne
  | cons b bs =>
      show (integer (Write.function f) "entry" >>= fun entry =>
        pure { blocks := (b :: bs).toArray, entry := entry }) = .ok f.graph
      rw [hentry, ← hlist]
      rfl

theorem access_written {a : Access} (h : ∀ w ∈ a.waivers, w.Marked) :
    access unit (Write.access a) = .ok a := by
  rw [access, text_of_get? a.binding, choice_of_get? a.kind, integer_of_get? a.block,
    location_of_get? a.location, waivers_of_get? a.waivers _ h]
  · rfl
  all_goals simp [Write.access]

theorem returnSite_written {r : ReturnSite} (h : ∀ w ∈ r.waivers, w.Marked) :
    returnSite unit (Write.returnSite r) = .ok r := by
  rw [returnSite, integer_of_get? r.block, optionalText_of_get? r.value, flag_of_get? r.aliases,
    location_of_get? r.location, waivers_of_get? r.waivers _ h]
  · rfl
  all_goals simp [Write.returnSite]

theorem function_eq (raw : Entries) :
    function unit raw = do
      let graph ← graph unit raw
      let name ← text raw "name"
      let calls ← names raw "calls"
      let accesses ← each raw "accesses" (access unit)
      let returns ← each raw "returns" (returnSite unit)
      let location ← location unit raw
      let waivers ← waivers unit raw
      return { name, graph, calls, accesses, returns, location, waivers } := by
  simp only [function, each, bind_assoc]

theorem function_written {f : Function} (h : f.WellFormed) :
    function unit (Write.function f) = .ok f := by
  have haccesses : each (Write.function f) "accesses" (access unit) = .ok f.accesses :=
    each_of_get? _ (fun a ha => access_written (h.accesses a ha)) (by simp [Write.function])
  have hreturns : each (Write.function f) "returns" (returnSite unit) = .ok f.returns :=
    each_of_get? _ (fun r hr => returnSite_written (h.returns r hr)) (by simp [Write.function])
  rw [function_eq, graph_written h.graph, text_of_get? f.name, names_of_get? f.calls, haccesses,
    hreturns, location_of_get? f.location, waivers_of_get? f.waivers _ h.waivers]
  · rfl
  all_goals simp [Write.function]

theorem criticalSection_written {s : CriticalSection} (h : ∀ w ∈ s.waivers, w.Marked) :
    criticalSection unit (Write.criticalSection s) = .ok s := by
  rw [criticalSection, text_of_get? s.lock, text_of_get? s.function, integer_of_get? s.enter,
    integers_of_get? s.exits, flag_of_get? s.performsIo, flag_of_get? s.unboundedLoop,
    integer_of_get? s.size, location_of_get? s.location, waivers_of_get? s.waivers _ h]
  · rfl
  all_goals simp [Write.criticalSection]

/-- The entry of a captured binding. -/
def captureEntry (c : Capture) : Scalar × Value := (.text c.binding, Write.member c.mode)

/-- Bindings with different names get entries of their own, in order. -/
theorem foldl_put_captures (cs done : List Capture)
    (h : ((done ++ cs).map (·.binding)).Nodup) :
    cs.foldl (fun entries c => Entries.put entries (.text c.binding) (Write.member c.mode))
      (done.map captureEntry) = (done ++ cs).map captureEntry := by
  induction cs generalizing done with
  | nil => simp
  | cons c cs ih =>
      have hnew : ∀ e ∈ done.map captureEntry, e.1.sameKey (.text c.binding) = false := by
        intro e he
        obtain ⟨d, hd, rfl⟩ := List.mem_map.mp he
        have hne : d.binding ≠ c.binding := by
          rw [List.map_append, List.nodup_append] at h
          exact h.2.2 _ (List.mem_map_of_mem hd) _ (List.mem_map_of_mem List.mem_cons_self)
        simpa [captureEntry, Scalar.sameKey] using hne
      rw [List.foldl_cons, Entries.put_of_new hnew,
        show [(Scalar.text c.binding, Write.member c.mode)] = [c].map captureEntry from rfl,
        ← List.map_append, ih (done ++ [c]) (by simpa using h), List.append_assoc,
        List.singleton_append]

theorem capture_written (c : Capture) : capture (captureEntry c) = .ok c := by
  unfold capture captureEntry Write.member
  simp only [LawfulWorded.ofWord?_word]
  rfl

theorem captures_written {t : Task} (h : (t.captures.map (·.binding)).Nodup) :
    captures (Write.task t) = .ok t.captures := by
  have hget : (Write.task t).get? "captures"
      = some (.mapping (t.captures.map captureEntry)) := by
    have hput : Write.captures t.captures = t.captures.map captureEntry :=
      foldl_put_captures t.captures [] h
    simp [Write.task, hput]
  rw [captures, hget]
  cases hcaptures : t.captures with
  | nil => rfl
  | cons c cs =>
      show ((c :: cs).map captureEntry).mapM capture = .ok (c :: cs)
      exact mapM_map_eq_ok fun c _ => capture_written c

theorem task_written {t : Task} (h : (t.captures.map (·.binding)).Nodup) :
    task unit (Write.task t) = .ok t := by
  rw [task, captures_written h, text_of_get? t.name, text_of_get? t.entry,
    flag_of_get? t.replicated, location_of_get? t.location]
  · rfl
  all_goals simp [Write.task]

theorem registration_written (r : Registration) :
    registration unit (Write.registration r) = .ok r := by
  rw [registration, text_of_get? r.call, text_of_get? r.handler, location_of_get? r.location]
  · rfl
  all_goals simp [Write.registration]

theorem channel_written {c : Channel} (h : ∀ w ∈ c.waivers, w.Marked) :
    channel unit (Write.channel c) = .ok c := by
  rw [channel, text_of_get? c.name, choice_of_get? c.capacity, optionalInteger_of_get? c.size,
    location_of_get? c.location, waivers_of_get? c.waivers _ h]
  · rfl
  all_goals simp [Write.channel]

theorem mapOperation_written {o : MapOperation} (h : ∀ w ∈ o.waivers, w.Marked) :
    mapOperation unit (Write.mapOperation o) = .ok o := by
  rw [mapOperation, choice_of_get? o.action, text_of_get? o.key, text_of_get? o.function,
    integer_of_get? o.block, optionalInteger_of_get? o.missBlock, location_of_get? o.location,
    waivers_of_get? o.waivers _ h]
  · rfl
  all_goals simp [Write.mapOperation]

theorem concurrentMap_eq (raw : Entries) :
    concurrentMap unit raw = do
      let name ← text raw "name"
      let operations ← each raw "operations" (mapOperation unit)
      let location ← location unit raw
      let waivers ← waivers unit raw
      return { name, operations, location, waivers } := by
  simp only [concurrentMap, each, bind_assoc]

theorem concurrentMap_written {c : ConcurrentMap} (h : c.WellFormed) :
    concurrentMap unit (Write.concurrentMap c) = .ok c := by
  rw [concurrentMap_eq, text_of_get? c.name,
    each_of_get? c.operations fun o ho => mapOperation_written (h.operations o ho),
    location_of_get? c.location, waivers_of_get? c.waivers _ h.waivers]
  · rfl
  all_goals simp [Write.concurrentMap]

theorem timer_written {t : Timer} (h : ∀ w ∈ t.waivers, w.Marked) :
    timer unit (Write.timer t) = .ok t := by
  rw [timer, text_of_get? t.name, text_of_get? t.function, choice_of_get? t.kind,
    integer_of_get? t.block, integers_of_get? t.stopBlocks, flag_of_get? t.deferredStop,
    location_of_get? t.location, waivers_of_get? t.waivers _ h]
  · rfl
  all_goals simp [Write.timer]

theorem instant_written (i : Instant) : instant unit (Write.instant i) = .ok i := by
  rw [instant, text_of_get? i.name, flag_of_get? i.monotonic, optionalText_of_get? i.derivedFrom,
    optionalText_of_get? i.transformation, location_of_get? i.location]
  · rfl
  all_goals simp [Write.instant]

theorem comparison_written {c : Comparison} (h : ∀ w ∈ c.waivers, w.Marked) :
    comparison unit (Write.comparison c) = .ok c := by
  rw [comparison, choice_of_get? c.operator, text_of_get? c.left, text_of_get? c.right,
    flag_of_get? c.structural, flag_of_get? c.targetsPersisted, location_of_get? c.location,
    waivers_of_get? c.waivers _ h]
  · rfl
  all_goals simp [Write.comparison]

theorem elapsed_written {e : Elapsed} (h : ∀ w ∈ e.waivers, w.Marked) :
    elapsed unit (Write.elapsed e) = .ok e := by
  rw [elapsed, text_of_get? e.instant, location_of_get? e.location,
    waivers_of_get? e.waivers _ h]
  · rfl
  all_goals simp [Write.elapsed]

end Read

/-! ## Documents -/

namespace Document

theorem unitName_written {m : Model} (h : m.unit ≠ "") (fallback : String) :
    unitName (Write.model m) fallback = .ok m.unit := by
  have hget : (Write.model m).get? "unit" = some (.text m.unit) := by simp [Write.model]
  have hsays : (Value.text m.unit).isEmpty = false := by simpa [Value.isEmpty] using h
  unfold unitName
  simp only [hget, hsays]
  rfl

theorem readEntries_written {m : Model} (h : m.WellFormed) (fallback : String) :
    readEntries (Write.model m) fallback = .ok m := by
  rw [readEntries, unitName_written h.unit]
  show (Read.each (Write.model m) "bindings" (Read.binding m.unit) >>= _) = _
  rw [Read.each_of_get? m.bindings fun b hb => Read.binding_written (h.bindings b hb),
    Read.each_of_get? m.locks fun l _ => Read.lock_written l,
    Read.each_of_get? m.functions fun f hf => Read.function_written (h.functions f hf),
    Read.each_of_get? m.sections fun s hs => Read.criticalSection_written (h.sections s hs),
    Read.each_of_get? m.tasks fun t ht => Read.task_written (h.tasks t ht),
    Read.each_of_get? m.registrations fun r _ => Read.registration_written r,
    Read.each_of_get? m.channels fun c hc => Read.channel_written (h.channels c hc),
    Read.each_of_get? m.maps fun c hc => Read.concurrentMap_written (h.maps c hc),
    Read.each_of_get? m.timers fun t ht => Read.timer_written (h.timers t ht),
    Read.each_of_get? m.instants fun i _ => Read.instant_written i,
    Read.each_of_get? m.comparisons fun c hc => Read.comparison_written (h.comparisons c hc),
    Read.each_of_get? m.elapsed fun e he => Read.elapsed_written (h.elapsed e he),
    Field.waivers_of_get? m.waivers _ h.waivers]
  · rfl
  all_goals simp [Write.model]

/-- Every key that is written means something to the reader. -/
theorem unknownKeys_written (m : Model) : unknownKeys (Write.model m) = .ok [] := by
  have hknown : (Write.model m).filter (fun entry => !isKnown entry.1) = [] := by
    rw [List.filter_eq_nil_iff]
    intro entry hentry
    obtain ⟨key, hkey, htext⟩ := Entries.key_of_mem_ofFields hentry
    have hentryKnown : isKnown entry.1 = true := by
      rw [htext]
      exact List.contains_iff_mem.mpr hkey
    simp [hentryKnown]
  unfold unknownKeys
  simp [hknown, Text.sorted]
  rfl

/-- **The reader loses nothing and mixes nothing up.** The canonical document of facts that can be
    written is read as these facts, whatever a document without a name would be called, and it gives
    no notice. -/
theorem read_write (m : Model) (h : m.WellFormed) (fallback : String) :
    read (write m) fallback = .ok m ∧ notices (write m) = [] := by
  constructor
  · show (unknownKeys (Write.model m) >>= fun _ => readEntries (Write.model m) fallback) = .ok m
    rw [unknownKeys_written]
    exact readEntries_written h fallback
  · simp [write, notices, unknownKeys_written]

/-- Facts that are close to what a reader takes for nothing: a name and a scope without characters,
    a size of zero, an entry and a successor that are no blocks, a waiver without a rule. The second
    block has a location that its written form would not give back. -/
def sparse : Model where
  unit := "0"
  bindings := [{ name := "", mutable := false, category := .atomic, scope := "" }]
  functions := [{
    name := "poll"
    graph := {
      blocks := #[{ number := 0, successors := [1, 7] },
        { number := 1, exit := some .raising, location := some ⟨"a:5", 0, 0⟩, label := some "" }]
      entry := -1 }
    returns := [{ block := 1, value := some "", waivers := [{ marker := some "" }] }] }]
  tasks := [{
    name := "worker", entry := "poll"
    captures := [
      { binding := "stats", mode := .byValue }, { binding := "", mode := .byReference }] }]
  channels := [{ name := "jobs", capacity := .bounded, size := some 0 }]
  waivers := [{ rule := some "all", justification := "none" }]

theorem sparse_wellFormed : sparse.WellFormed where
  unit := by decide
  bindings := by decide
  functions := by
    intro f hf
    obtain rfl := List.mem_singleton.mp hf
    refine ⟨⟨by decide, ?_⟩, by decide, by decide, by decide⟩
    intro i b hb
    match i with
    | 0 => obtain rfl := Option.some.inj hb; rfl
    | 1 => obtain rfl := Option.some.inj hb; rfl
    | i + 2 => simp at hb
  sections := by decide
  tasks := by decide
  channels := by decide
  maps := List.forall_mem_nil _
  timers := by decide
  comparisons := by decide
  elapsed := by decide
  waivers := by decide

theorem read_write_sparse :
    read (write sparse) "other" = .ok sparse ∧ notices (write sparse) = [] :=
  read_write sparse sparse_wellFormed "other"

end Document

end Hazard
