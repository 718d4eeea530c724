import Hazard.Proofs.Rule.Sites

set_option autoImplicit false

/-! # Accesses that handlers contend for

A handler is a function that some registration hands to a request router. The rule about handlers
reports an access that a handler makes, in whatever function it runs, to a binding that another
handler or a task uses too, unless a lock protects it there. This module says so in the terms of the
unit: the access is reported once for each handler that makes it, and the candidate names all the
others (`evaluate_eq_contended`).

Whom a candidate names depends on the binding alone, and on nobody's locks. So two handlers that are
reported for the same binding name each other. -/

namespace Hazard

theorem Model.name_of_binding? {m : Model} {name : String} {b : Binding}
    (h : m.binding? name = some b) : b.name = name := by
  simpa using List.find?_some h

/-- A function is listed as a handler once, however often it is registered. -/
theorem Model.handlers_nodup (m : Model) (isRouter : String → Bool) :
    ((m.handlers isRouter).map fun x => x.2.name).Nodup := by
  unfold handlers
  refine (novel_keys_nodup Registration.handler [] _).sublist (map_filterMap_sublist ?_ _)
  intro r x hx
  obtain ⟨f, hf, rfl⟩ := Option.map_eq_some_iff.mp hx
  exact name_of_function? hf

namespace HandlerSafety

/-! ## What is to be reported -/

/-- The function is registered by a call that matches some pattern. -/
def IsHandler (m : Model) (patterns : List Pattern) (h : Function) : Prop :=
  h ∈ m.functions ∧ ∃ r ∈ m.registrations, r.handler = h.name
    ∧ ∃ p ∈ patterns, p.search r.call = true

/-- What is entered at a function uses the binding: it runs some function with an access to it. -/
def Uses (m : Model) (entry binding : String) : Prop :=
  ∃ f ∈ m.functions, (∃ a ∈ f.accesses, a.binding = binding) ∧ m.Runs entry f.name

/-- Who else uses a binding that a handler uses, as a candidate names them: the other handlers, and
    the tasks that do not have their own copy. -/
inductive Sharer (m : Model) (patterns : List Pattern) (h : Function) (binding : String) :
    String → Prop where
  | handler {other : Function} (hother : IsHandler m patterns other) (hne : other ≠ h)
      (huses : Uses m other.name binding) :
      Sharer m patterns h binding s!"handler '{other.name}'"
  | task {t : Task} (ht : t ∈ m.tasks) (huses : Uses m t.entry binding)
      (hcopy : ¬∃ c ∈ t.captures, c.binding = binding ∧ c.mode = .byValue) :
      Sharer m patterns h binding s!"task '{t.name}'"

/-- The access of the function is one that the handler makes to a binding of others: the handler
    runs the function, control can reach the access, the binding changes, and not atomically, no
    lock protects it and somebody else uses it. -/
structure Contended (m : Model) (patterns : List Pattern) (h f : Function) (a : Access)
    (b : Binding) : Prop where
  handler : IsHandler m patterns h
  function : f ∈ m.functions
  runs : m.Runs h.name f.name
  binding : m.binding? a.binding = some b
  mutable : b.mutable = true
  notAtomic : b.category ≠ .atomic
  reachable : f.graph.Reachable a.block
  unguarded : m.isGuarded f.name a.block b.name = false
  shared : ∃ text, Sharer m patterns h b.name text

/-- The candidate is about the access that the handler makes in the function. It names those who
    share the binding, each once and in order. -/
structure Tells (m : Model) (patterns : List Pattern) (h f : Function) (a : Access) (b : Binding)
    (c : Candidate) : Prop where
  rule : c.rule = "RC.1"
  location : c.location = m.locate [a.location, f.location]
  waivers : c.waivers = a.waivers
  handler : c.extras.lookup "handler" = some (.text h.name)
  binding : c.extras.lookup "binding" = some (.text b.name)
  sharers : ∃ names : List String, c.extras.lookup "sharers" = some (.texts names)
    ∧ (names.Pairwise fun a b => Text.codes a < Text.codes b)
    ∧ ∀ text, text ∈ names ↔ Sharer m patterns h b.name text

/-! ## Reports by position -/

/-- The findings in one function that a handler runs, each with the handler, the function and the
    position of the access there. -/
def reportsIn (m : Model) (running : Runners) (r : Registration) (h : Function) (name : String) :
    List ((Function × Function × Nat) × Candidate) :=
  match m.function? name with
  | none => []
  | some f => (resultsAt (finding? m running r h f) f.accesses).map fun x => ((h, f, x.1), x.2)

/-- The findings, each with the handler, the function that it runs and the position of the access
    there. -/
def reportsAt (m : Model) (isRouter : String → Bool) :
    List ((Function × Function × Nat) × Candidate) :=
  let registered := m.handlers isRouter
  let running := runners m (registered.map (·.2))
  registered.flatMap fun (r, h) => (m.reachableFunctions h.name).flatMap (reportsIn m running r h)

theorem findings_eq_reportsAt (m : Model) (isRouter : String → Bool) :
    findings m isRouter = (reportsAt m isRouter).map (·.2) := by
  unfold findings reportsAt
  rw [List.map_flatMap]
  refine List.flatMap_congr fun handler _ => ?_
  rw [List.map_flatMap]
  refine List.flatMap_congr fun name _ => ?_
  unfold reportsIn
  cases m.function? name with
  | none => rfl
  | some f => simp [← map_snd_resultsAt, Function.comp_def]

theorem mem_reportsIn_iff (m : Model) (running : Runners) (r : Registration) (h : Function)
    (name : String) (site : Function × Function × Nat) (c : Candidate) :
    (site, c) ∈ reportsIn m running r h name ↔
      site.1 = h ∧ m.function? name = some site.2.1
        ∧ ∃ a, site.2.1.accesses[site.2.2]? = some a
          ∧ finding? m running r h site.2.1 a = some c := by
  unfold reportsIn
  cases m.function? name with
  | none => simp
  | some f =>
      simp only [List.mem_map, Prod.mk.injEq, Option.some.injEq]
      constructor
      · rintro ⟨⟨i, c'⟩, hresult, rfl, rfl⟩
        exact ⟨rfl, rfl, (mem_resultsAt_iff _ _ i c').mp hresult⟩
      · rintro ⟨rfl, rfl, hresult⟩
        exact ⟨(site.2.2, c), (mem_resultsAt_iff _ _ _ c).mpr hresult, rfl, rfl⟩

theorem reportsIn_nodup (m : Model) (running : Runners) (r : Registration) (h : Function)
    (name : String) : ((reportsIn m running r h name).map (·.1)).Nodup := by
  unfold reportsIn
  cases m.function? name with
  | none => exact List.nodup_nil
  | some f =>
      have hsites := (resultsAt_nodup (finding? m running r h f) f.accesses).map
        (f := fun i => (h, f, i)) fun i j hij => by simpa using hij
      simpa [Function.comp_def] using hsites

theorem mem_reportsAt_iff (m : Model) (isRouter : String → Bool) (h f : Function) (i : Nat)
    (c : Candidate) :
    ((h, f, i), c) ∈ reportsAt m isRouter ↔ ∃ r, (r, h) ∈ m.handlers isRouter
      ∧ m.Runs h.name f.name ∧ m.function? f.name = some f ∧ ∃ a, f.accesses[i]? = some a
      ∧ finding? m (runners m ((m.handlers isRouter).map (·.2))) r h f a = some c := by
  simp only [reportsAt, List.mem_flatMap, mem_reportsIn_iff, Model.mem_reachableFunctions_iff]
  constructor
  · rintro ⟨⟨r, h'⟩, hregistered, name, hruns, rfl, hf, hresult⟩
    obtain rfl := Model.name_of_function? hf
    exact ⟨r, hregistered, hruns, hf, hresult⟩
  · rintro ⟨r, hregistered, hruns, hf, hresult⟩
    exact ⟨(r, h), hregistered, f.name, hruns, rfl, hf, hresult⟩

/-- No access is reported twice for a handler. -/
theorem reportsAt_nodup (m : Model) (isRouter : String → Bool) :
    ((reportsAt m isRouter).map (·.1)).Nodup := by
  simp only [reportsAt, List.map_flatMap]
  refine nodup_flatMap_of_mark (fun x => x.2.name) (fun site => site.1.name)
    (m.handlers_nodup isRouter) ?_ ?_
  · rintro ⟨r, h⟩ _ site hsite
    obtain ⟨name, _, hsite⟩ := List.mem_flatMap.mp hsite
    obtain ⟨⟨_, c⟩, hreport, rfl⟩ := List.mem_map.mp hsite
    rw [((mem_reportsIn_iff _ _ _ _ _ _ _).mp hreport).1]
  · rintro ⟨r, h⟩ _
    refine nodup_flatMap_of_mark id (fun site => site.2.1.name)
      (by simpa using m.reachableFunctions_nodup h.name) ?_ ?_
    · rintro name _ site hsite
      obtain ⟨⟨_, c⟩, hreport, rfl⟩ := List.mem_map.mp hsite
      exact Model.name_of_function? ((mem_reportsIn_iff _ _ _ _ _ _ _).mp hreport).2.1
    · intro name _
      exact reportsIn_nodup _ _ _ _ _

/-! ## Handlers and sharers -/

theorem isRouter_iff (patterns : List Pattern) (call : String) :
    isRouter patterns call = true ↔ ∃ p ∈ patterns, p.search call = true := by
  rw [isRouter, List.any_eq_true]

section Distinct

variable {m : Model} (hfunctions : m.DistinctFunctions) (patterns : List Pattern)

include hfunctions

theorem mem_handlers_iff (h : Function) :
    h ∈ (m.handlers (isRouter patterns)).map (·.2) ↔ IsHandler m patterns h := by
  simp only [Model.mem_handlers_iff, isRouter_iff, hfunctions.function?_iff, IsHandler]
  constructor
  · rintro ⟨r, hr, hcall, hh, hname⟩
    exact ⟨hh, r, hr, hname.symm, hcall⟩
  · rintro ⟨hh, r, hr, hname, hcall⟩
    exact ⟨r, hr, hcall, hh, hname.symm⟩

theorem mem_sharers_iff_sharer {h : Function} (hh : h ∈ m.functions) (binding text : String) :
    text ∈ sharers m (runners m ((m.handlers (isRouter patterns)).map (·.2))) h.name binding ↔
      Sharer m patterns h binding text := by
  simp only [mem_sharers_iff, mem_handlers_iff hfunctions, Model.mem_sharingTasks_iff,
    Model.mem_reachableFunctions_iff]
  constructor
  · rintro ⟨⟨f, a⟩, hsite, hby⟩
    obtain ⟨hf, ha, hbinding⟩ := (m.mem_accessesOf_iff binding f a).mp hsite
    rcases hby with ⟨other, hother, hne, hruns, rfl⟩ | ⟨t, ⟨ht, hruns, hcopy⟩, rfl⟩
    · refine .handler hother (fun heq => hne ?_) ⟨f, hf, ⟨a, ha, hbinding⟩, hruns⟩
      rw [heq]
    · exact .task ht ⟨f, hf, ⟨a, ha, hbinding⟩, hruns⟩ hcopy
  · intro hsharer
    cases hsharer with
    | @handler other hother hne huses =>
        obtain ⟨f, hf, ⟨a, ha, hbinding⟩, hruns⟩ := huses
        -- A handler of the same name would be the same function.
        have hname : other.name ≠ h.name := fun heq =>
          hne (List.inj_on_of_nodup_map hfunctions hother.1 hh heq)
        exact ⟨(f, a), (m.mem_accessesOf_iff binding f a).mpr ⟨hf, ha, hbinding⟩,
          .inl ⟨other, hother, hname, hruns, rfl⟩⟩
    | @task t ht huses hcopy =>
        obtain ⟨f, hf, ⟨a, ha, hbinding⟩, hruns⟩ := huses
        exact ⟨(f, a), (m.mem_accessesOf_iff binding f a).mpr ⟨hf, ha, hbinding⟩,
          .inr ⟨t, ⟨ht, hruns, hcopy⟩, rfl⟩⟩

theorem exposed_iff_contended {h f : Function} (hh : IsHandler m patterns h) (hf : f ∈ m.functions)
    (hruns : m.Runs h.name f.name) (a : Access) (b : Binding) :
    Exposed m ((m.handlers (isRouter patterns)).map (·.2)) h f a b ↔
      Contended m patterns h f a b := by
  have hshared : sharers m (runners m ((m.handlers (isRouter patterns)).map (·.2))) h.name b.name
      ≠ [] ↔ ∃ text, Sharer m patterns h b.name text := by
    simp only [← mem_sharers_iff_sharer hfunctions patterns hh.1]
    exact ⟨List.exists_mem_of_ne_nil _, fun ⟨_, htext⟩ => List.ne_nil_of_mem htext⟩
  constructor
  · rintro ⟨hb, hcontested, hreachable, hunguarded, hsharers⟩
    simp only [Binding.isContested, Bool.and_eq_true, bne_iff_ne] at hcontested
    exact ⟨hh, hf, hruns, hb, hcontested.1, hcontested.2,
      (hfunctions.isReachable_name hf a.block).mp hreachable, hunguarded, hshared.mp hsharers⟩
  · intro hcontended
    refine ⟨hcontended.binding, ?_, (hfunctions.isReachable_name hf a.block).mpr
      hcontended.reachable, hcontended.unguarded, hshared.mpr hcontended.shared⟩
    simp [Binding.isContested, hcontended.mutable, hcontended.notAtomic]

theorem finding_tells {h : Function} (hh : h ∈ m.functions) (r : Registration) (f : Function)
    (a : Access) (b : Binding) :
    Tells m patterns h f a b (finding m r h f a b
      (sharers m (runners m ((m.handlers (isRouter patterns)).map (·.2))) h.name b.name)) where
  rule := rfl
  location := rfl
  waivers := rfl
  handler := rfl
  binding := rfl
  sharers := ⟨_, rfl, Text.sortedSet_ascending _, fun text =>
    mem_sharers_iff_sharer hfunctions patterns hh b.name text⟩

/-- What a report is about, and that its candidate tells. -/
theorem tells_of_mem_reportsAt {h f : Function} {i : Nat} {c : Candidate}
    (hreport : ((h, f, i), c) ∈ reportsAt m (isRouter patterns)) :
    ∃ a b, f.accesses[i]? = some a ∧ Contended m patterns h f a b
      ∧ Tells m patterns h f a b c := by
  obtain ⟨r, hregistered, hruns, hf, a, ha, hc⟩ := (mem_reportsAt_iff m _ h f i c).mp hreport
  have hh := (mem_handlers_iff hfunctions patterns h).mp (List.mem_map_of_mem hregistered)
  have hmem : f ∈ m.functions := List.mem_of_find?_eq_some hf
  obtain ⟨b, hexposed, rfl⟩ := (finding?_eq_some_iff m _ r h f a c).mp hc
  exact ⟨a, b, ha, (exposed_iff_contended hfunctions patterns hh hmem hruns a b).mp hexposed,
    finding_tells hfunctions patterns hh.1 r f a b⟩

theorem mem_reportsAt_of_contended {h f : Function} {i : Nat} {a : Access} {b : Binding}
    (ha : f.accesses[i]? = some a) (hcontended : Contended m patterns h f a b) :
    (h, f, i) ∈ (reportsAt m (isRouter patterns)).map (·.1) := by
  obtain ⟨⟨r, h'⟩, hregistered, rfl⟩ :=
    List.mem_map.mp ((mem_handlers_iff hfunctions patterns h).mpr hcontended.handler)
  have hexposed := (exposed_iff_contended hfunctions patterns hcontended.handler
    hcontended.function hcontended.runs a b).mpr hcontended
  refine List.mem_map.mpr ⟨((h', f, i), _), (mem_reportsAt_iff m _ h' f i _).mpr
    ⟨r, hregistered, hcontended.runs, hfunctions.function?_name hcontended.function, a, ha,
      (finding?_eq_some_iff m _ r h' f a _).mpr ⟨b, hexposed, rfl⟩⟩, rfl⟩

end Distinct

theorem Tells.mem_names {m : Model} {patterns : List Pattern} {h f : Function} {a : Access}
    {b : Binding} {c : Candidate} (htells : Tells m patterns h f a b c) {names : List String}
    (hnames : c.extras.lookup "sharers" = some (.texts names)) {text : String}
    (hsharer : Sharer m patterns h b.name text) : text ∈ names := by
  obtain ⟨names', hnames', _, hmem⟩ := htells.sharers
  have hsame : names'.map Value.text = names.map Value.text := by
    simpa [Value.texts] using hnames'.symm.trans hnames
  have hinj : Function.Injective Value.text := fun x y hxy => by simpa using hxy
  rw [← hinj.list_map hsame]
  exact (hmem text).mpr hsharer

/-- A handler that is reported for a binding is among those that any other handler shares it
    with. -/
theorem Contended.sharer {m : Model} {patterns : List Pattern} {h f : Function} {a : Access}
    {b : Binding} (hcontended : Contended m patterns h f a b) (ha : a ∈ f.accesses)
    {other : Function} (hne : h ≠ other) :
    Sharer m patterns other b.name s!"handler '{h.name}'" := by
  have hbinding : a.binding = b.name := (Model.name_of_binding? hcontended.binding).symm
  exact .handler hcontended.handler hne
    ⟨f, hcontended.function, ⟨a, ha, hbinding⟩, hcontended.runs⟩

/-- **The accesses that handlers contend for are reported, and nothing else.** Where functions have
    different names, the rule returns one candidate for each handler and each access that it makes
    to a binding of others, and the candidate names all who share the binding. So two handlers
    that are reported for the same binding name each other. -/
theorem evaluate_eq_contended [CharacterNames] {m : Model} {s : RuleSettings} {t : Value}
    {patterns : List Pattern} (hfunctions : m.DistinctFunctions)
    (ht : s.threshold "handler_patterns" = .ok t)
    (hpatterns : Threshold.patterns t = .ok patterns) :
    ∃ found : List ((Function × Function × Nat) × Candidate),
      rule.evaluate m s = .ok (found.map (·.2))
      ∧ (found.map (·.1)).Nodup
      ∧ (∀ h f i, (h, f, i) ∈ found.map (·.1) ↔
        ∃ a b, f.accesses[i]? = some a ∧ Contended m patterns h f a b)
      ∧ (∀ h f i c, ((h, f, i), c) ∈ found → ∃ a b, f.accesses[i]? = some a
        ∧ Contended m patterns h f a b ∧ Tells m patterns h f a b c)
      ∧ ∀ c ∈ found.map (·.2), ∀ c' ∈ found.map (·.2), ∀ h other b names,
        c.extras.lookup "handler" = some (.text h) →
        c'.extras.lookup "handler" = some (.text other) →
        c.extras.lookup "binding" = some (.text b) → c'.extras.lookup "binding" = some (.text b) →
        c.extras.lookup "sharers" = some (.texts names) → h ≠ other →
        s!"handler '{other}'" ∈ names := by
  have htells := @tells_of_mem_reportsAt m hfunctions patterns
  refine ⟨reportsAt m (isRouter patterns), ?_, reportsAt_nodup m _, fun h f i => ⟨?_, ?_⟩, ?_, ?_⟩
  · rw [← findings_eq_reportsAt, findings_eq]
    exact evaluate_eq ht hpatterns
  · intro hsite
    obtain ⟨⟨_, c⟩, hreport, rfl⟩ := List.mem_map.mp hsite
    obtain ⟨a, b, ha, hcontended, _⟩ := htells hreport
    exact ⟨a, b, ha, hcontended⟩
  · rintro ⟨a, b, ha, hcontended⟩
    exact mem_reportsAt_of_contended hfunctions patterns ha hcontended
  · intro h f i c hreport
    exact htells hreport
  · rintro c hc c' hc' h other b names hhandler hhandler' hbinding hbinding' hnames hne
    obtain ⟨⟨⟨g, f, i⟩, _⟩, hreport, rfl⟩ := List.mem_map.mp hc
    obtain ⟨⟨⟨g', f', i'⟩, _⟩, hreport', rfl⟩ := List.mem_map.mp hc'
    obtain ⟨a, x, _, _, htell⟩ := htells hreport
    obtain ⟨a', x', ha', hcontended', htell'⟩ := htells hreport'
    obtain rfl : g.name = h := by simpa using htell.handler.symm.trans hhandler
    obtain rfl : g'.name = other := by simpa using htell'.handler.symm.trans hhandler'
    obtain rfl : x.name = b := by simpa using htell.binding.symm.trans hbinding
    have hsame : x'.name = x.name := by simpa using htell'.binding.symm.trans hbinding'
    have hsharer := hcontended'.sharer (List.mem_of_getElem? ha') fun heq => hne (heq ▸ rfl)
    exact htell.mem_names hnames (hsame ▸ hsharer)

/-- A call that one of the texts of a threshold finds is found by one of its patterns. -/
theorem exists_search [CharacterNames] {ps : List String} {patterns : List Pattern}
    (h : Threshold.patterns (.texts ps) = .ok patterns) {p : String} (hp : p ∈ ps) {call : String}
    (hsearch : (Pattern.parse p).toOption.any (·.search call) = true) :
    ∃ q ∈ patterns, q.search call = true := by
  have hall : (ps.map Value.text).mapM Threshold.pattern = .ok patterns := h
  cases hparse : Pattern.parse p with
  | error e =>
      rw [hparse] at hsearch
      cases hsearch
  | ok q =>
      have hpattern : Threshold.pattern (.text p) = .ok q := by
        rw [Threshold.pattern, hparse]
        rfl
      rw [hparse] at hsearch
      exact ⟨q, mem_of_mapM_eq_ok hall (List.mem_map_of_mem hp) hpattern, hsearch⟩

/-- A function that writes to `x`. -/
def storing : Function := { name := "store", accesses := [{ binding := "x", kind := .write }] }

/-- A function that calls another one. -/
def serving : Function := { name := "serve", calls := ["look"] }

/-- A function that reads `x`. -/
def looking : Function := { name := "look", accesses := [{ binding := "x" }] }

/-- A unit with two handlers that use `x`, one of them in a function that it calls. -/
def twoHandlers : Model where
  unit := "u"
  bindings := [{ name := "x" }]
  functions := [storing, serving, looking]
  registrations := [{ call := "http.HandleFunc", handler := "store" },
    { call := "http.HandleFunc", handler := "serve" }]

open scoped CharacterNames

/-- Each handler is reported for its access, and names the other one. -/
theorem evaluate_eq_contended_twoHandlers :
    ∃ candidates, rule.evaluate twoHandlers info.defaults = .ok candidates
      ∧ (∃ c ∈ candidates, ∃ names, c.extras.lookup "sharers" = some (.texts names)
        ∧ "handler 'serve'" ∈ names)
      ∧ ∃ c ∈ candidates, ∃ names, c.extras.lookup "sharers" = some (.texts names)
        ∧ "handler 'store'" ∈ names := by
  obtain ⟨patterns, hpatterns⟩ := Threshold.exists_patterns parse_defaultPatterns
  obtain ⟨found, hrun, _, hsites, htells, hmutual⟩ := evaluate_eq_contended (m := twoHandlers)
    (s := info.defaults) (by decide) rfl hpatterns
  have hsearch : ∃ p ∈ patterns, p.search "http.HandleFunc" = true :=
    exists_search hpatterns List.mem_cons_self (by decide +kernel)
  have hstoring : IsHandler twoHandlers patterns storing :=
    ⟨by decide, _, List.mem_cons_self, rfl, hsearch⟩
  have hserving : IsHandler twoHandlers patterns serving :=
    ⟨by decide, _, List.mem_cons_of_mem _ List.mem_cons_self, rfl, hsearch⟩
  have hstored : Contended twoHandlers patterns storing storing { binding := "x", kind := .write }
      { name := "x" } :=
    ⟨hstoring, by decide, by decide, rfl, rfl, by decide, by decide +kernel, rfl, _,
      .handler hserving (by decide) ⟨looking, by decide, by decide, by decide⟩⟩
  have hlooked : Contended twoHandlers patterns serving looking { binding := "x" }
      { name := "x" } :=
    ⟨hserving, by decide, by decide, rfl, rfl, by decide, by decide +kernel, rfl, _,
      .handler hstoring (by decide) ⟨storing, by decide, by decide, by decide⟩⟩
  have htold : ∀ {h f : Function} {i : Nat} {a : Access}, f.accesses[i]? = some a →
      Contended twoHandlers patterns h f a { name := "x" } → ∃ c ∈ found.map (·.2), ∃ names,
        c.extras.lookup "handler" = some (.text h.name)
        ∧ c.extras.lookup "binding" = some (.text "x")
        ∧ c.extras.lookup "sharers" = some (.texts names) := by
    intro h f i a ha hcontended
    obtain ⟨⟨_, c⟩, hreport, rfl⟩ := List.mem_map.mp ((hsites h f i).mpr ⟨a, _, ha, hcontended⟩)
    obtain ⟨_, b, _, hb, htell⟩ := htells h f i c hreport
    obtain ⟨names, hnames, _⟩ := htell.sharers
    obtain rfl : b = { name := "x" } :=
      List.mem_singleton.mp (List.mem_of_find?_eq_some hb.binding)
    exact ⟨c, List.mem_map_of_mem hreport, names, htell.handler, htell.binding, hnames⟩
  obtain ⟨c, hc, names, hhandler, hbinding, hnames⟩ := htold (i := 0) rfl hstored
  obtain ⟨c', hc', names', hhandler', hbinding', hnames'⟩ := htold (i := 0) rfl hlooked
  exact ⟨_, hrun,
    ⟨c, hc, names, hnames,
      hmutual c hc c' hc' _ _ _ names hhandler hhandler' hbinding hbinding' hnames (by decide)⟩,
    ⟨c', hc', names', hnames',
      hmutual c' hc' c hc _ _ _ names' hhandler' hhandler hbinding' hbinding hnames' (by decide)⟩⟩

end HandlerSafety

end Hazard
