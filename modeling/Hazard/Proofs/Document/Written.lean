import Hazard.Document.Reader

set_option autoImplicit false

/-! # The canonical document of a unit

`Document.write` is the counterpart of `Document.read`. It gives every fact a field of its own under
the name that the reader knows it by, and it leaves nothing to a default: a flag that is false, a
zero, an empty name and an empty list are all written out. Only what is absent has no field. A
location is written as a mapping, since the written form `file:line:column` does not tell all files
apart, and the blocks of a flow graph are written without their numbers, which are their positions.

Some facts have no document. A document cannot say that a function has no blocks or that its blocks
are numbered otherwise, that a waiver has neither a rule nor a marker, that the unit has no name, or
that a task captures one binding twice. `Model.WellFormed` rules these out. -/

namespace Hazard

namespace Entries

/-- The entries with the given fields; a field without a value is left out. -/
def ofFields (fields : List (String × Option Value)) : Entries :=
  fields.filterMap fun (key, value) => value.map fun v => (.text key, v)

@[simp] theorem get?_ofFields_nil (key : String) : (ofFields []).get? key = none := rfl

@[simp] theorem get?_ofFields_cons (k : String) (v : Option Value)
    (fields : List (String × Option Value)) (key : String) :
    (ofFields ((k, v) :: fields)).get? key =
      if k = key then v.or ((ofFields fields).get? key) else (ofFields fields).get? key := by
  cases v with
  | none => simp [ofFields]
  | some v =>
      simp only [ofFields, List.filterMap_cons, Option.map_some, Entries.get?, beq_iff_eq,
        Option.some_or]

theorem key_of_mem_ofFields {fields : List (String × Option Value)} {entry : Scalar × Value}
    (h : entry ∈ ofFields fields) : ∃ key ∈ fields.map (·.1), entry.1 = .text key := by
  obtain ⟨⟨key, value⟩, hfield, hentry⟩ := List.mem_filterMap.mp h
  obtain ⟨v, _, rfl⟩ := Option.map_eq_some_iff.mp hentry
  exact ⟨key, List.mem_map_of_mem hfield, rfl⟩

theorem put_of_new {entries : Entries} {key : Scalar} {value : Value}
    (h : ∀ e ∈ entries, e.1.sameKey key = false) :
    entries.put key value = entries ++ [(key, value)] := by
  induction entries with
  | nil => rfl
  | cons e rest ih =>
      rw [put, h e List.mem_cons_self, ih fun e' he' => h e' (List.mem_cons_of_mem _ he')]
      rfl

end Entries

/-! ## Entities -/

namespace Write

/-- The word of a member of an enumeration. -/
def member {α : Type} [Worded α] (a : α) : Value := .text (Worded.word a)

/-- A list of integers. -/
def integers (ns : List Int) : Value := .list (ns.map .int)

/-- A list of entities of one kind. -/
def entities {α : Type} (write : α → Entries) (xs : List α) : Value :=
  .list ((xs.map write).map .mapping)

/-- A location. -/
def location (loc : Location) : Value :=
  .mapping (Entries.ofFields [
    ("file", some (.text loc.file)), ("line", some (.int loc.line)),
    ("column", some (.int loc.column))])

/-- A waiver. -/
def waiver (a : Waiver) : Entries :=
  Entries.ofFields [
    ("rule", a.rule.map .text), ("marker", a.marker.map .text),
    ("justification", some (.text a.justification)), ("location", a.location.map location)]

/-- The waivers of an entity. -/
def waivers (as : List Waiver) : Value := entities waiver as

/-- A storage location. -/
def binding (b : Binding) : Entries :=
  Entries.ofFields [
    ("name", some (.text b.name)), ("mutable", some (.bool b.mutable)),
    ("category", some (member b.category)), ("scope", some (.text b.scope)),
    ("location", b.location.map location), ("annotations", some (waivers b.waivers))]

/-- A lock. -/
def lock (l : Lock) : Entries :=
  Entries.ofFields [
    ("name", some (.text l.name)), ("kind", some (member l.kind)),
    ("protects", some (.texts l.protects)), ("location", l.location.map location)]

/-- A block of a flow graph. -/
def block (b : Block) : Entries :=
  Entries.ofFields [
    ("successors", some (integers b.successors)), ("exit", b.exit.map member),
    ("location", b.location.map location), ("label", b.label.map .text)]

/-- An access to a binding. -/
def access (a : Access) : Entries :=
  Entries.ofFields [
    ("binding", some (.text a.binding)), ("kind", some (member a.kind)),
    ("block", some (.int a.block)), ("location", a.location.map location),
    ("annotations", some (waivers a.waivers))]

/-- A place where a function returns. -/
def returnSite (r : ReturnSite) : Entries :=
  Entries.ofFields [
    ("block", some (.int r.block)), ("value", r.value.map .text),
    ("aliases", some (.bool r.aliases)), ("location", r.location.map location),
    ("annotations", some (waivers r.waivers))]

/-- A function with its flow graph. -/
def function (f : Function) : Entries :=
  Entries.ofFields [
    ("name", some (.text f.name)), ("blocks", some (entities block f.graph.blocks.toList)),
    ("entry", some (.int f.graph.entry)), ("calls", some (.texts f.calls)),
    ("accesses", some (entities access f.accesses)),
    ("returns", some (entities returnSite f.returns)), ("location", f.location.map location),
    ("annotations", some (waivers f.waivers))]

/-- A critical section. -/
def criticalSection (s : CriticalSection) : Entries :=
  Entries.ofFields [
    ("lock", some (.text s.lock)), ("function", some (.text s.function)),
    ("enter_block", some (.int s.enter)), ("exit_blocks", some (integers s.exits)),
    ("performs_io", some (.bool s.performsIo)), ("unbounded_loop", some (.bool s.unboundedLoop)),
    ("size", some (.int s.size)), ("location", s.location.map location),
    ("annotations", some (waivers s.waivers))]

/-- The captures of a task, by the names of the bindings. A binding that is captured twice has one
    entry. -/
def captures (cs : List Capture) : Entries :=
  cs.foldl (fun entries c => entries.put (.text c.binding) (member c.mode)) []

/-- A task. -/
def task (t : Task) : Entries :=
  Entries.ofFields [
    ("name", some (.text t.name)), ("entry", some (.text t.entry)),
    ("captures", some (.mapping (captures t.captures))),
    ("replicated", some (.bool t.replicated)), ("location", t.location.map location)]

/-- A registration of a handler. -/
def registration (r : Registration) : Entries :=
  Entries.ofFields [
    ("call", some (.text r.call)), ("handler", some (.text r.handler)),
    ("location", r.location.map location)]

/-- A channel. -/
def channel (c : Channel) : Entries :=
  Entries.ofFields [
    ("name", some (.text c.name)), ("capacity", some (member c.capacity)),
    ("size", c.size.map .int), ("location", c.location.map location),
    ("annotations", some (waivers c.waivers))]

/-- An operation on a concurrent map. -/
def mapOperation (o : MapOperation) : Entries :=
  Entries.ofFields [
    ("kind", some (member o.action)), ("key", some (.text o.key)),
    ("function", some (.text o.function)), ("block", some (.int o.block)),
    ("miss_block", o.missBlock.map .int), ("location", o.location.map location),
    ("annotations", some (waivers o.waivers))]

/-- A concurrent map. -/
def concurrentMap (c : ConcurrentMap) : Entries :=
  Entries.ofFields [
    ("name", some (.text c.name)), ("operations", some (entities mapOperation c.operations)),
    ("location", c.location.map location), ("annotations", some (waivers c.waivers))]

/-- A timer. -/
def timer (t : Timer) : Entries :=
  Entries.ofFields [
    ("name", some (.text t.name)), ("function", some (.text t.function)),
    ("kind", some (member t.kind)), ("block", some (.int t.block)),
    ("stop_blocks", some (integers t.stopBlocks)),
    ("deferred_stop", some (.bool t.deferredStop)), ("location", t.location.map location),
    ("annotations", some (waivers t.waivers))]

/-- An instant. -/
def instant (i : Instant) : Entries :=
  Entries.ofFields [
    ("name", some (.text i.name)), ("monotonic", some (.bool i.monotonic)),
    ("derived_from", i.derivedFrom.map .text), ("transformation", i.transformation.map .text),
    ("location", i.location.map location)]

/-- A comparison of instants. -/
def comparison (c : Comparison) : Entries :=
  Entries.ofFields [
    ("operator", some (member c.operator)), ("left", some (.text c.left)),
    ("right", some (.text c.right)), ("structural", some (.bool c.structural)),
    ("targets_persisted", some (.bool c.targetsPersisted)),
    ("location", c.location.map location), ("annotations", some (waivers c.waivers))]

/-- A measured duration. -/
def elapsed (e : Elapsed) : Entries :=
  Entries.ofFields [
    ("instant", some (.text e.instant)), ("location", e.location.map location),
    ("annotations", some (waivers e.waivers))]

/-- The fields of a unit. -/
def model (m : Model) : Entries :=
  Entries.ofFields [
    ("unit", some (.text m.unit)), ("bindings", some (entities binding m.bindings)),
    ("locks", some (entities lock m.locks)), ("functions", some (entities function m.functions)),
    ("critical_sections", some (entities criticalSection m.sections)),
    ("tasks", some (entities task m.tasks)),
    ("registrations", some (entities registration m.registrations)),
    ("channels", some (entities channel m.channels)),
    ("maps", some (entities concurrentMap m.maps)),
    ("timers", some (entities timer m.timers)), ("instants", some (entities instant m.instants)),
    ("comparisons", some (entities comparison m.comparisons)),
    ("elapsed", some (entities elapsed m.elapsed)), ("annotations", some (waivers m.waivers))]

end Write

/-- The canonical document of a unit. -/
def Document.write (m : Model) : Value := .mapping (Write.model m)

/-! ## What can be written -/

/-- A waiver that names a rule or a marker. -/
def Waiver.Marked (a : Waiver) : Prop := a.rule.isSome ∨ a.marker.isSome

instance (a : Waiver) : Decidable a.Marked := inferInstanceAs (Decidable (_ ∨ _))

/-- The blocks of a flow graph are numbered by their positions, and there is at least one. -/
structure FlowGraph.Numbered (g : FlowGraph) : Prop where
  nonempty : 0 < g.size
  number : ∀ (i : Nat) (b : Block), g.blocks[i]? = some b → b.number = i

/-- A function that can be written. -/
structure Function.WellFormed (f : Function) : Prop where
  graph : f.graph.Numbered
  accesses : ∀ a ∈ f.accesses, ∀ w ∈ a.waivers, w.Marked
  returns : ∀ r ∈ f.returns, ∀ w ∈ r.waivers, w.Marked
  waivers : ∀ w ∈ f.waivers, w.Marked

/-- A concurrent map that can be written. -/
structure ConcurrentMap.WellFormed (c : ConcurrentMap) : Prop where
  operations : ∀ o ∈ c.operations, ∀ w ∈ o.waivers, w.Marked
  waivers : ∀ w ∈ c.waivers, w.Marked

/-- Facts that can be written: the unit has a name, the flow graphs have numbered blocks, every
    waiver names a rule or a marker, and no task captures a binding twice. -/
structure Model.WellFormed (m : Model) : Prop where
  unit : m.unit ≠ ""
  bindings : ∀ b ∈ m.bindings, ∀ w ∈ b.waivers, w.Marked
  functions : ∀ f ∈ m.functions, f.WellFormed
  sections : ∀ s ∈ m.sections, ∀ w ∈ s.waivers, w.Marked
  tasks : ∀ t ∈ m.tasks, (t.captures.map (·.binding)).Nodup
  channels : ∀ c ∈ m.channels, ∀ w ∈ c.waivers, w.Marked
  maps : ∀ c ∈ m.maps, c.WellFormed
  timers : ∀ t ∈ m.timers, ∀ w ∈ t.waivers, w.Marked
  comparisons : ∀ c ∈ m.comparisons, ∀ w ∈ c.waivers, w.Marked
  elapsed : ∀ e ∈ m.elapsed, ∀ w ∈ e.waivers, w.Marked
  waivers : ∀ w ∈ m.waivers, w.Marked

end Hazard
