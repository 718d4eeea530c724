import Hazard.Proofs.Rule.Returns

set_option autoImplicit false

/-! # Timers that are left running

The rule about timers asks for the paths to the exits on which a timer is not stopped. There are
some if and only if any path at all leads from the block of the timer to an exit without a block
that stops it, since such a path has a first exit and can be ended there. So what is reported is a
property of the graph and its paths (`Leaky`), and the more blocks stop a timer, the less there is
to report about it (`evaluate_eq_leaky`).

The candidate shows where each of the exits is, and how many of them are not described. A number
with too many digits cannot be shown, and one such timer is enough for the rule to fail. -/

namespace Hazard

namespace TimerLeak

/-! ## What is to be reported -/

/-- The timer keeps firing after its function has been left: it repeats, nothing stops it whichever
    way the function is left, and some path leads from its block to an exit without a block that
    stops it. -/
structure Leaky (m : Model) (t : Timer) : Prop where
  kind : t.kind = .repeating
  deferred : t.deferredStop = false
  escapes : ∃ f, m.function? t.function = some f ∧ ∃ e path b, f.graph.Path t.block e path
    ∧ f.graph.block? e = some b ∧ (b.exit ≠ none ∨ f.graph.successors e = [])
    ∧ ∀ n ∈ path, n ∉ t.stopBlocks

/-- The exit is the first one on a path without a block that stops the timer. -/
def LeftRunning (g : FlowGraph) (t : Timer) (e : Int) : Prop :=
  ∃ path, g.ExitPath t.block t.stopBlocks e path

/-- Where an exit of a function is. -/
def exitLocation (m : Model) (f : Function) (e : Int) : Location :=
  m.locate [(f.graph.block? e).bind (·.location), f.location]

/-- What a candidate has to say about the timer can be written: the locations of the exits, and the
    number of those that are not described. -/
structure Describable (m : Model) (limit : Int) (t : Timer) : Prop where
  exits : ∀ f, m.function? t.function = some f → ∀ e, LeftRunning f.graph t e →
    (exitLocation m f e).Writable
  rest : limit < (m.unstoppedExitPaths t).length →
    Text.isWritable ((m.unstoppedExitPaths t).length - limit) = true

/-- One of the paths that the candidate shows ends at the block. -/
def Lists (c : Candidate) (e : Int) : Prop :=
  ∃ items entries, ∃ path : List Int, c.extras.lookup "exit_paths" = some (.list items)
    ∧ Value.mapping entries ∈ items ∧ Entries.get? entries "blocks" = some (.list (path.map .int))
    ∧ path.getLast? = some e

/-- The candidate is about the timer, and lists the exits at which it is left running. -/
structure Tells (m : Model) (t : Timer) (c : Candidate) : Prop where
  rule : c.rule = "Tm.1"
  waivers : c.waivers = t.waivers
  timer : c.extras.lookup "timer" = some (.text t.name)
  function : ∃ f, m.function? t.function = some f
    ∧ c.location = m.locate [t.location, f.location]
    ∧ c.extras.lookup "function" = some (.text f.name)
    ∧ ∀ e, Lists c e ↔ LeftRunning f.graph t e

/-! ## The paths of a timer -/

theorem unstoppedExitPaths_eq {m : Model} {t : Timer} {f : Function}
    (hf : m.function? t.function = some f) (hdeferred : t.deferredStop = false) :
    m.unstoppedExitPaths t = f.graph.pathsToExits t.block t.stopBlocks := by
  simp [Model.unstoppedExitPaths, hf, hdeferred]

/-- The function of a timer owns it if the timer is left running there. -/
theorem owner?_eq_some_iff (m : Model) (t : Timer) (f : Function) :
    owner? m t = some f ↔ m.function? t.function = some f ∧ Leaky m t := by
  have hpaths : ∀ f, m.function? t.function = some f → (Leaky m t ↔
      t.kind = .repeating ∧ m.unstoppedExitPaths t ≠ []) := by
    intro f hf
    cases hdeferred : t.deferredStop with
    | true =>
        refine iff_of_false (fun h => ?_) (fun h => h.2 ?_)
        · simp [h.deferred] at hdeferred
        · simp [Model.unstoppedExitPaths, hf, hdeferred]
    | false =>
        rw [unstoppedExitPaths_eq hf hdeferred, f.graph.pathsToExits_ne_nil_iff]
        simp only [FlowGraph.isExit_iff]
        constructor
        · rintro ⟨hkind, _, f', hf', e, path, b, hpath, hb, hexit, hunstopped⟩
          obtain rfl := Option.some.inj (hf.symm.trans hf')
          exact ⟨hkind, e, path, hpath, ⟨b, hb, hexit⟩, hunstopped⟩
        · rintro ⟨hkind, e, path, hpath, ⟨b, hb, hexit⟩, hunstopped⟩
          exact ⟨hkind, hdeferred, f, hf, e, path, b, hpath, hb, hexit, hunstopped⟩
  simp only [owner?, Option.bind_eq_bind, Option.bind_eq_some_iff]
  constructor
  · rintro ⟨f', hf', howner⟩
    split_ifs at howner with hleaky
    obtain rfl := Option.some.inj howner
    rw [Bool.and_eq_true, beq_iff_eq, Bool.not_eq_true', List.isEmpty_eq_false_iff] at hleaky
    exact ⟨hf', (hpaths f' hf').mpr hleaky⟩
  · rintro ⟨hf, hleaky⟩
    refine ⟨f, hf, if_pos ?_⟩
    rw [Bool.and_eq_true, beq_iff_eq, Bool.not_eq_true', List.isEmpty_eq_false_iff]
    exact (hpaths f hf).mp hleaky

theorem owner?_isSome_iff (m : Model) (t : Timer) : (owner? m t).isSome = true ↔ Leaky m t := by
  rw [Option.isSome_iff_exists]
  constructor
  · rintro ⟨f, howner⟩
    exact ((owner?_eq_some_iff m t f).mp howner).2
  · intro hleaky
    obtain ⟨f, hf, _⟩ := hleaky.escapes
    exact ⟨f, (owner?_eq_some_iff m t f).mpr ⟨hf, hleaky⟩⟩

instance (m : Model) (t : Timer) : Decidable (Leaky m t) :=
  decidable_of_iff _ (owner?_isSome_iff m t)

/-- The paths that are shown end at the exits at which the timer is left running. -/
theorem exists_path_iff {m : Model} {t : Timer} {f : Function}
    (hf : m.function? t.function = some f) (hdeferred : t.deferredStop = false) (e : Int) :
    (∃ path ∈ m.unstoppedExitPaths t, path.getLast? = some e) ↔ LeftRunning f.graph t e := by
  rw [unstoppedExitPaths_eq hf hdeferred, ← List.mem_filterMap,
    f.graph.filterMap_getLast?_pathsToExits, f.graph.mem_foundExits_iff]
  rfl

/-! ## Candidates -/

/-- The way out that a path takes, with its location written out. -/
def exitOf (m : Model) (f : Function) (path : List Int) : Exit where
  kind := f.graph.exitKind? (path.getLast?.getD 0)
  location := (exitLocation m f (path.getLast?.getD 0)).text
  blocks := path

theorem ofPath_eq {m : Model} {f : Function} {path : List Int} {e : Int}
    (hlast : path.getLast? = some e) (h : (exitLocation m f e).Writable) :
    Exit.ofPath m f path = .ok (exitOf m f path) := by
  simp only [Exit.ofPath, exitOf, hlast, Option.getD_some]
  exact (bind_eq_ok_iff _ _ _).mpr ⟨_, h.mapError_written, rfl⟩

theorem ofPath_eq_error {m : Model} {f : Function} {path : List Int} {e : Int}
    (hlast : path.getLast? = some e) (h : ¬(exitLocation m f e).Writable) :
    Exit.ofPath m f path = .error (.ofNumeral .unwritable) := by
  have hwritten := Location.mapError_written_of_not h
  unfold exitLocation at hwritten
  simp only [Exit.ofPath, hlast, Option.getD_some, hwritten]
  rfl

theorem ofPath_failsOnly {m : Model} {f : Function} {path : List Int} {e : Int}
    (hlast : path.getLast? = some e) :
    FailsOnly (· = .ofNumeral .unwritable) (Exit.ofPath m f path) := by
  intro fault hfault
  by_cases h : (exitLocation m f e).Writable
  · rw [ofPath_eq hlast h] at hfault
    cases hfault
  · rw [ofPath_eq_error hlast h] at hfault
    exact (Except.error.inj hfault).symm

/-- The value of a way out tells its blocks. -/
theorem get?_blocks_value (x : Exit) :
    ∃ entries, x.value = .mapping entries
      ∧ Entries.get? entries "blocks" = some (.list (x.blocks.map .int)) :=
  ⟨_, rfl, rfl⟩

/-- The blocks that are listed are the last ones of the paths. -/
theorem lists_iff {c : Candidate} {exits : List Exit}
    (h : c.extras.lookup "exit_paths" = some (.list (exits.map (·.value)))) (e : Int) :
    Lists c e ↔ ∃ x ∈ exits, x.blocks.getLast? = some e := by
  constructor
  · rintro ⟨items, entries, path, hitems, hentries, hblocks, hlast⟩
    obtain rfl : exits.map (·.value) = items :=
      Value.list.inj (Option.some.inj (h.symm.trans hitems))
    obtain ⟨x, hx, hvalue⟩ := List.mem_map.mp hentries
    obtain ⟨entries', hentries', hblocks'⟩ := get?_blocks_value x
    obtain rfl : entries' = entries := Value.mapping.inj (hentries'.symm.trans hvalue)
    have hsame : x.blocks.map Value.int = path.map Value.int :=
      Value.list.inj (Option.some.inj (hblocks'.symm.trans hblocks))
    have hpath : x.blocks = path :=
      List.map_injective_iff.mpr (fun a b hab => by simpa using hab) hsame
    exact ⟨x, hx, by rw [hpath, hlast]⟩
  · rintro ⟨x, hx, hlast⟩
    obtain ⟨entries, hentries, hblocks⟩ := get?_blocks_value x
    exact ⟨_, entries, x.blocks, h, hentries ▸ List.mem_map_of_mem hx, hblocks, hlast⟩

section Findings

variable {m : Model} {t : Timer} {v : Value} {limit : Int}

theorem findingsFor_of_not_leaky (h : ¬Leaky m t) : findingsFor m v t = .ok [] := by
  have howner : owner? m t = none := by
    rw [← Option.not_isSome_iff_eq_none, owner?_isSome_iff]
    exact h
  unfold findingsFor
  rw [howner]
  rfl

/-- Where the exits can be located, only the number of those that are not described may be too
    long. -/
theorem exists_candidate (hleaky : Leaky m t) (hcount : itemCount v = .ok limit)
    (hexits : ∀ f, m.function? t.function = some f → ∀ e, LeftRunning f.graph t e →
      (exitLocation m f e).Writable) :
    ∃ c, findingsFor m v t = (if !Text.isWritable ((m.unstoppedExitPaths t).length - limit)
          && decide (limit < (m.unstoppedExitPaths t).length) then
        .error (.ofNumeral .unwritable)
      else .ok [c]) ∧ Tells m t c := by
  obtain ⟨f, hf, _⟩ := hleaky.escapes
  have howner := (owner?_eq_some_iff m t f).mpr ⟨hf, hleaky⟩
  have hlists := exists_path_iff hf hleaky.deferred
  have hmapM : (m.unstoppedExitPaths t).mapM (Exit.ofPath m f)
      = .ok ((m.unstoppedExitPaths t).map (exitOf m f)) := by
    refine mapM_eq_ok_map fun path hpath => ?_
    obtain ⟨e, hlast, _⟩ := block_of_mem_unstoppedExitPaths hf hpath
    exact ofPath_eq hlast (hexits f hf e ((hlists e).mp ⟨path, hpath, hlast⟩))
  simp only [findingsFor, howner, hmapM, hcount, bind, Except.bind, List.length_map]
  refine ⟨_, rfl, rfl, rfl, rfl, f, hf, rfl, rfl, fun e => ?_⟩
  rw [lists_iff rfl, ← hlists]
  simp only [List.mem_map]
  constructor
  · rintro ⟨_, ⟨path, hpath, rfl⟩, hlast⟩
    exact ⟨path, hpath, hlast⟩
  · rintro ⟨path, hpath, hlast⟩
    exact ⟨_, ⟨path, hpath, rfl⟩, hlast⟩

theorem findingsFor_tells (hleaky : Leaky m t) (hcount : itemCount v = .ok limit)
    (h : Describable m limit t) : ∃ c, findingsFor m v t = .ok [c] ∧ Tells m t c := by
  obtain ⟨c, hfindings, htells⟩ := exists_candidate hleaky hcount h.exits
  refine ⟨c, ?_, htells⟩
  rw [hfindings, if_neg]
  intro hunwritable
  rw [Bool.and_eq_true, decide_eq_true_eq] at hunwritable
  simp [h.rest hunwritable.2] at hunwritable

theorem findingsFor_eq_error (hleaky : Leaky m t) (hcount : itemCount v = .ok limit)
    (h : ¬Describable m limit t) : findingsFor m v t = .error (.ofNumeral .unwritable) := by
  by_cases hexits : ∀ f, m.function? t.function = some f → ∀ e, LeftRunning f.graph t e →
      (exitLocation m f e).Writable
  · obtain ⟨c, hfindings, _⟩ := exists_candidate hleaky hcount hexits
    rw [hfindings, if_pos]
    have hrest : ¬(limit < (m.unstoppedExitPaths t).length →
        Text.isWritable ((m.unstoppedExitPaths t).length - limit) = true) :=
      fun hrest => h ⟨hexits, hrest⟩
    simpa [and_comm] using hrest
  · -- The first exit without a location that can be written stops the rule.
    push Not at hexits
    obtain ⟨f, hf, e, hleft, hunwritable⟩ := hexits
    obtain ⟨path, hpath, hlast⟩ := (exists_path_iff hf hleaky.deferred e).mpr hleft
    have hmapM : (m.unstoppedExitPaths t).mapM (Exit.ofPath m f)
        = .error (.ofNumeral .unwritable) := by
      refine mapM_eq_error (fun path hpath => ?_) hpath (ofPath_eq_error hlast hunwritable)
      obtain ⟨e', hlast', _⟩ := block_of_mem_unstoppedExitPaths hf hpath
      exact ofPath_failsOnly hlast'
    simp only [findingsFor, (owner?_eq_some_iff m t f).mpr ⟨hf, hleaky⟩, hmapM]
    rfl

theorem findingsFor_failsOnly (hcount : itemCount v = .ok limit) :
    FailsOnly (· = .ofNumeral .unwritable) (findingsFor m v t) := by
  intro fault hfault
  by_cases hleaky : Leaky m t
  · by_cases h : Describable m limit t
    · obtain ⟨c, hfindings, _⟩ := findingsFor_tells hleaky hcount h
      rw [hfindings] at hfault
      cases hfault
    · rw [findingsFor_eq_error hleaky hcount h] at hfault
      exact (Except.error.inj hfault).symm
  · rw [findingsFor_of_not_leaky hleaky] at hfault
    cases hfault

end Findings

/-! ## More blocks that stop a timer -/

theorem Leaky.of_moreStops {m : Model} {t : Timer} {stops : List Int} (hsub : t.stopBlocks ⊆ stops)
    (h : Leaky m { t with stopBlocks := stops }) : Leaky m t := by
  obtain ⟨hkind, hdeferred, f, hf, e, path, b, hpath, hb, hexit, hunstopped⟩ := h
  exact ⟨hkind, hdeferred, f, hf, e, path, b, hpath, hb, hexit,
    fun n hn hstop => hunstopped n hn (hsub hstop)⟩

/-- Whether a timer is left running does not depend on the other timers of the unit. -/
theorem leaky_withTimers_iff (m : Model) (timers : List Timer) (t : Timer) :
    Leaky { m with timers } t ↔ Leaky m t :=
  ⟨fun h => ⟨h.kind, h.deferred, h.escapes⟩, fun h => ⟨h.kind, h.deferred, h.escapes⟩⟩

theorem LeftRunning.of_moreStops {g : FlowGraph} {t : Timer} {stops : List Int} {e : Int}
    (hsub : t.stopBlocks ⊆ stops) (h : LeftRunning g { t with stopBlocks := stops } e) :
    LeftRunning g t e := by
  obtain ⟨path, hpath⟩ := h
  exact ⟨path, hpath.mono hsub⟩

/-- **The timers that are left running are reported, and nothing else.** Where everything about them
    can be written, the rule returns one candidate for each timer that is left running, in the order
    of the timers, and otherwise it fails. With more blocks to stop it, a timer is not left running
    where it was not before, and no exit is added to those that are listed for it, whatever timers
    the unit has. -/
theorem evaluate_eq_leaky {m : Model} {s : RuleSettings} {v : Value} {limit : Int}
    (hlimit : s.threshold "max_reported_paths" = .ok v) (hcount : itemCount v = .ok limit) :
    ((∀ t ∈ m.timers, Leaky m t → Describable m limit t) →
      ∃ candidates, rule.evaluate m s = .ok candidates
        ∧ List.Forall₂ (Tells m) (m.timers.filter fun t => Leaky m t) candidates)
    ∧ ((∃ t ∈ m.timers, Leaky m t ∧ ¬Describable m limit t) →
      rule.evaluate m s = .error (.ofNumeral .unwritable))
    ∧ ∀ t stops timers, t.stopBlocks ⊆ stops →
      (Leaky { m with timers } { t with stopBlocks := stops } → Leaky m t)
      ∧ ∀ c c', Tells m t c → Tells { m with timers } { t with stopBlocks := stops } c' →
        ∀ e, Lists c' e → Lists c e := by
  have heval : rule.evaluate m s
      = m.timers.mapM (findingsFor m v) >>= fun found => pure found.flatten := by
    show (s.threshold "max_reported_paths" >>= fun limit => _) = _
    rw [hlimit]
    rfl
  refine ⟨?_, ?_, ?_⟩
  · intro hall
    obtain ⟨found, hfound, htells⟩ := exists_flatten_mapM_forall₂
      (p := fun t => decide (Leaky m t)) (R := Tells m)
      (fun t ht hleaky => findingsFor_tells (of_decide_eq_true hleaky) hcount
        (hall t ht (of_decide_eq_true hleaky)))
      (fun t _ hsafe => findingsFor_of_not_leaky (of_decide_eq_false hsafe))
    exact ⟨found.flatten, heval.trans ((bind_eq_ok_iff _ _ _).mpr ⟨found, hfound, rfl⟩), htells⟩
  · rintro ⟨t, ht, hleaky, hlong⟩
    have hfails : ∀ t ∈ m.timers, FailsOnly (· = .ofNumeral .unwritable) (findingsFor m v t) :=
      fun t _ => findingsFor_failsOnly hcount
    rw [heval, mapM_eq_error hfails ht (findingsFor_eq_error hleaky hcount hlong)]
    rfl
  · intro t stops timers hsub
    refine ⟨fun h => ((leaky_withTimers_iff m timers _).mp h).of_moreStops hsub, ?_⟩
    rintro c c' htells htells' e he
    obtain ⟨f, hf, _, _, hlists⟩ := htells.function
    obtain ⟨f', hf', _, _, hlists'⟩ := htells'.function
    obtain rfl : f = f' := Option.some.inj (hf.symm.trans hf')
    exact (hlists e).mpr (((hlists' e).mp he).of_moreStops hsub)

/-- A flow graph that splits in two, with an exit on the given line and another one. -/
def twoExits (line : Int) : FlowGraph where
  blocks := #[{ number := 0, successors := [1, 2] },
    { number := 1, exit := some .returning, location := some ⟨"u", line, 0⟩ },
    { number := 2, exit := some .returning }]

/-- A repeating timer that is stopped before the second exit. -/
def ticker : Timer := { name := "t", function := "f", stopBlocks := [2] }

/-- A timer that fires once and is never stopped. -/
def alarm : Timer := { name := "a", function := "f", kind := .oneShot }

/-- A unit with both timers. -/
def timedUnit (line : Int) : Model where
  unit := "u"
  functions := [{ name := "f", graph := twoExits line }]
  timers := [alarm, ticker]

theorem leftRunning_ticker_iff (line e : Int) :
    LeftRunning (twoExits line) ticker e ↔ e = 1 := by
  constructor
  · rintro ⟨path, hpath⟩
    have hexit : e ∈ [(1 : Int), 2] := hpath.mem_exitBlocks
    have hstop : e ∉ [(2 : Int)] := hpath.unblocked e (by rw [← hpath.path.dropLast_append]; simp)
    exact (List.mem_cons.mp hexit).resolve_right hstop
  · rintro rfl
    have hpath : (twoExits line).Path 0 1 [0, 1] :=
      (FlowGraph.Path.start rfl).step List.mem_cons_self
    exact ⟨[0, 1], hpath, by decide, rfl, by simp; rfl⟩

theorem leaky_timedUnit (line : Int) :
    (timedUnit line).timers.filter (fun t => Leaky (timedUnit line) t) = [ticker] := by
  have halarm : ¬Leaky (timedUnit line) alarm := fun h => by cases h.kind
  have hticker : Leaky (timedUnit line) ticker := by
    obtain ⟨path, hpath⟩ := (leftRunning_ticker_iff line 1).mpr rfl
    exact ⟨rfl, rfl, _, rfl, 1, path, _, hpath.path, rfl, Or.inl nofun, hpath.unblocked⟩
  have htimers : (timedUnit line).timers = [alarm, ticker] := rfl
  simp [htimers, halarm, hticker]

/-- The ticker is reported with the exit on the line, and the alarm is not; or the rule fails, if
    the line cannot be written. -/
theorem evaluate_eq_leaky_timedUnit :
    (∃ c, rule.evaluate (timedUnit 7) info.defaults = .ok [c]
      ∧ c.extras.lookup "timer" = some (.text "t") ∧ ∀ e, Lists c e ↔ e = 1)
    ∧ rule.evaluate (timedUnit (Nat.pow 10 4300)) info.defaults
      = .error (.ofNumeral .unwritable) := by
  have hexit : ∀ line e, LeftRunning (twoExits line) ticker e →
      exitLocation (timedUnit line) { name := "f", graph := twoExits line } e = ⟨"u", line, 0⟩ := by
    intro line e he
    obtain rfl := (leftRunning_ticker_iff line e).mp he
    rfl
  have hleaky : ∀ line, ∀ t ∈ (timedUnit line).timers, Leaky (timedUnit line) t ↔ t = ticker := by
    intro line t ht
    have hmem : t ∈ (timedUnit line).timers.filter (fun t => Leaky (timedUnit line) t) ↔
        t ∈ [ticker] := by rw [leaky_timedUnit]
    simpa [ht] using hmem
  refine ⟨?_, ?_⟩
  · have hdescribable : ∀ t ∈ (timedUnit 7).timers, Leaky (timedUnit 7) t →
        Describable (timedUnit 7) 3 t := by
      intro t ht ht'
      obtain rfl := (hleaky 7 t ht).mp ht'
      refine ⟨?_, fun hlt => ?_⟩
      · rintro f hf e he
        obtain rfl := Option.some.inj hf
        rw [hexit 7 e he]
        decide +kernel
      · -- There are not more paths than blocks, so none is left out.
        have hle := length_unstoppedExitPaths_le (m := timedUnit 7) (t := ticker) rfl
        have hsize : (twoExits 7).size = 3 := rfl
        dsimp only at hle
        omega
    obtain ⟨candidates, hrun, htells⟩ :=
      (@evaluate_eq_leaky (timedUnit 7) info.defaults _ 3 rfl rfl).1 hdescribable
    rw [leaky_timedUnit] at htells
    cases htells with
    | @cons _ c _ _ htell hrest =>
        cases hrest with
        | nil =>
            obtain ⟨f, hf, _, _, hlists⟩ := htell.function
            obtain rfl := Option.some.inj hf
            exact ⟨c, hrun, htell.timer, fun e => (hlists e).trans (leftRunning_ticker_iff 7 e)⟩
  · have hmem : ∀ line, ticker ∈ (timedUnit line).timers :=
      fun line => List.mem_cons_of_mem alarm List.mem_cons_self
    refine (@evaluate_eq_leaky (timedUnit (Nat.pow 10 4300)) info.defaults _ 3 rfl rfl).2.1
      ⟨ticker, hmem _, (hleaky _ ticker (hmem _)).mpr rfl, ?_⟩
    intro hdescribable
    have hwritable := hdescribable.exits _ rfl 1 ((leftRunning_ticker_iff _ 1).mpr rfl)
    rw [hexit _ 1 ((leftRunning_ticker_iff _ 1).mpr rfl)] at hwritable
    revert hwritable
    decide +kernel

end TimerLeak

end Hazard
