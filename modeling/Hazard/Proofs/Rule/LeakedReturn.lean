import Hazard.Proofs.Rule.Sites

set_option autoImplicit false

/-! # Returns that hand out what a lock protects

The rule about leaked references goes through the critical sections of a unit and looks in each of
them for returns that hand out a structure the lock protects. A return can lie in several sections,
and is reported for the first of them. So what is reported, section by section, is a property of the
return alone (`evaluate_eq_leaks`): it hands out a compound binding, and the block it is in is
guarded for that binding. That is the same question, `Model.isGuarded`, that the rules about
unguarded accesses ask. -/

namespace Hazard

namespace LeakedReference

/-! ## What is to be reported -/

/-- The return hands out the binding itself, which is a structure, and not a copy of it. -/
structure HandsOut (m : Model) (r : ReturnSite) (b : Binding) : Prop where
  aliases : r.aliases = true
  value : ∃ name, r.value = some name ∧ m.binding? name = some b
  compound : b.category = .compound

/-- The section is one of the function, guards the block of the return, and its lock protects the
    binding, or is not declared. -/
structure Encloses (m : Model) (name : String) (r : ReturnSite) (b : Binding)
    (s : CriticalSection) : Prop where
  function : s.function = name
  block : r.block ∈ m.guardedBlocks s
  lock : ∀ l, m.lock? s.lock = some l → l.guards b.name = true

/-- The return at a position of a function leaks a binding: it hands the binding out from a block
    that is guarded for it. -/
structure Leaks (m : Model) (name : String) (i : Nat) (f : Function) (r : ReturnSite)
    (b : Binding) : Prop where
  function : m.function? name = some f
  site : f.returns[i]? = some r
  handsOut : HandsOut m r b
  guarded : m.isGuarded name r.block b.name = true

/-- The candidate is about the return of the function, and names the lock of the section. -/
structure Tells (m : Model) (f : Function) (r : ReturnSite) (b : Binding) (s : CriticalSection)
    (c : Candidate) : Prop where
  rule : c.rule = "RC.3"
  location : c.location = m.locate [r.location, f.location]
  message : c.message = s!"'{f.name}' returns a reference to '{b.name}' protected by '{s.lock}'; "
    ++ "callers use it after the lock is released"
  waivers : c.waivers = r.waivers
  function : c.extras.lookup "function" = some (.text f.name)
  binding : c.extras.lookup "binding" = some (.text b.name)
  lock : c.extras.lookup "lock" = some (.text s.lock)

/-! ## The leaks out of one section -/

theorem excludes_iff (m : Model) (s : CriticalSection) (binding : String) :
    m.excludes s binding = true ↔ ∀ l, m.lock? s.lock = some l → l.guards binding = true := by
  rw [Model.excludes, Option.all_eq_true]

theorem leak?_of_handsOut {m : Model} {s : CriticalSection} {guarded : List Int} {f : Function}
    {r : ReturnSite} {b : Binding} (hb : HandsOut m r b) (hblock : r.block ∈ guarded)
    (hlock : m.excludes s b.name = true) (i : Nat) :
    ∃ l, leak? m s guarded f (r, i) = some l := by
  obtain ⟨name, hvalue, hbinding⟩ := hb.value
  simp [leak?, hvalue, hbinding, hb.aliases, hblock, hb.compound, hlock]

theorem tells_of_leak? {m : Model} {s : CriticalSection} {guarded : List Int} {f : Function}
    {r : ReturnSite} {i : Nat} {l : Leak} (h : leak? m s guarded f (r, i) = some l) :
    (l.function, l.index) = (f.name, i) ∧ ∃ b, HandsOut m r b ∧ r.block ∈ guarded
      ∧ m.excludes s b.name = true ∧ Tells m f r b s l.candidate := by
  simp only [leak?, Option.bind_eq_bind, Option.bind_eq_some_iff] at h
  obtain ⟨name, hvalue, b, hbinding, h⟩ := h
  split_ifs at h with hleak
  obtain rfl := Option.some.inj h
  simp only [Bool.and_eq_true, beq_iff_eq, List.contains_iff_mem] at hleak
  obtain ⟨⟨⟨haliases, hblock⟩, hcompound⟩, hlock⟩ := hleak
  exact ⟨rfl, b, ⟨haliases, ⟨name, hvalue, hbinding⟩, hcompound⟩, hblock, hlock,
    ⟨rfl, rfl, rfl, rfl, rfl, rfl, rfl⟩⟩

theorem mem_leaks_iff (m : Model) (s : CriticalSection) (l : Leak) :
    l ∈ leaks m s ↔ ∃ f r, m.function? s.function = some f ∧ f.returns[l.index]? = some r
      ∧ leak? m s (m.guardedBlocks s) f (r, l.index) = some l := by
  unfold leaks
  cases hf : m.function? s.function with
  | none => simp
  | some f =>
      simp only [List.mem_filterMap, Option.some.injEq]
      constructor
      · rintro ⟨⟨r, i⟩, hsite, hleak⟩
        obtain rfl : l.index = i := congrArg Prod.snd (tells_of_leak? hleak).1
        exact ⟨f, r, rfl, List.mem_zipIdx_iff_getElem?.mp hsite, hleak⟩
      · rintro ⟨_, r, rfl, hsite, hleak⟩
        exact ⟨(r, l.index), List.mem_zipIdx_iff_getElem?.mpr hsite, hleak⟩

/-- There is a leak at a position out of a section that encloses the return there. -/
theorem exists_mem_leaks_iff (m : Model) (s : CriticalSection) (name : String) (i : Nat) :
    (∃ l ∈ leaks m s, (l.function, l.index) = (name, i)) ↔
      ∃ f r b, m.function? name = some f ∧ f.returns[i]? = some r ∧ HandsOut m r b
        ∧ Encloses m name r b s := by
  constructor
  · rintro ⟨l, hl, hkey⟩
    obtain ⟨f, r, hf, hr, hleak⟩ := (mem_leaks_iff m s l).mp hl
    obtain ⟨hsite, b, hb, hblock, hlock, _⟩ := tells_of_leak? hleak
    obtain ⟨rfl, rfl⟩ := Prod.mk.inj hkey
    have hname : s.function = l.function := by
      rw [← Model.name_of_function? hf, (Prod.mk.inj hsite).1]
    exact ⟨f, r, b, hname ▸ hf, hr, hb, hname, hblock, (excludes_iff m s b.name).mp hlock⟩
  · rintro ⟨f, r, b, hf, hr, hb, rfl, hblock, hlock⟩
    have hexcludes := (excludes_iff m s b.name).mpr hlock
    obtain ⟨l, hleak⟩ := leak?_of_handsOut (f := f) hb hblock hexcludes i
    have hkey := (tells_of_leak? hleak).1
    obtain rfl : l.index = i := congrArg Prod.snd hkey
    rw [Model.name_of_function? hf] at hkey
    exact ⟨l, (mem_leaks_iff m s l).mpr ⟨f, r, hf, hr, hleak⟩, hkey⟩

/-- A block is guarded when some section encloses what happens there. -/
theorem isGuarded_iff_encloses (m : Model) (name : String) (r : ReturnSite) (b : Binding) :
    m.isGuarded name r.block b.name = true ↔ ∃ s ∈ m.sections, Encloses m name r b s := by
  rw [Model.isGuarded_eq_any, List.any_eq_true]
  simp only [Bool.and_eq_true, beq_iff_eq, List.contains_iff_mem, excludes_iff]
  refine exists_congr fun s => and_congr_right fun _ => ⟨?_, ?_⟩
  · rintro ⟨⟨hfunction, hlock⟩, hblock⟩
    exact ⟨hfunction, hblock, hlock⟩
  · rintro ⟨hfunction, hblock, hlock⟩
    exact ⟨⟨hfunction, hlock⟩, hblock⟩

/-! ## The first section -/

/-- All leaks, section by section. A return can be among them several times. -/
def allLeaks (m : Model) : List Leak := m.sections.flatMap (leaks m)

/-- There is a leak at a position when the return there leaks. -/
theorem mem_allLeaks_keys_iff (m : Model) (name : String) (i : Nat) :
    (name, i) ∈ (allLeaks m).map (fun l => (l.function, l.index)) ↔
      ∃ f r b, Leaks m name i f r b := by
  simp only [allLeaks, List.mem_map, List.mem_flatMap]
  constructor
  · rintro ⟨l, ⟨s, hs, hl⟩, hkey⟩
    obtain ⟨f, r, b, hf, hr, hb, hencloses⟩ := (exists_mem_leaks_iff m s name i).mp ⟨l, hl, hkey⟩
    exact ⟨f, r, b, hf, hr, hb, (isGuarded_iff_encloses m name r b).mpr ⟨s, hs, hencloses⟩⟩
  · rintro ⟨f, r, b, hf, hr, hb, hguarded⟩
    obtain ⟨s, hs, hencloses⟩ := (isGuarded_iff_encloses m name r b).mp hguarded
    obtain ⟨l, hl, hkey⟩ := (exists_mem_leaks_iff m s name i).mpr ⟨f, r, b, hf, hr, hb, hencloses⟩
    exact ⟨l, ⟨s, hs, hl⟩, hkey⟩

/-- Of the leaks at one position the one out of the first section that encloses the return is
    kept. -/
theorem tells_of_mem_novel {m : Model} {l : Leak}
    (h : l ∈ novel (fun l => (l.function, l.index)) [] (allLeaks m)) :
    ∃ f r b s, Leaks m l.function l.index f r b
      ∧ FirstIn (Encloses m l.function r b) m.sections s ∧ Tells m f r b s l.candidate := by
  obtain ⟨_, hfirst⟩ := (mem_novel_iff _ [] _ l).mp h
  rw [allLeaks, List.find?_flatMap, List.findSome?_eq_some_iff] at hfirst
  obtain ⟨before, s, after, hsections, hl, hnone⟩ := hfirst
  obtain ⟨f, r, hf, hr, hleak⟩ := (mem_leaks_iff m s l).mp (List.mem_of_find?_eq_some hl)
  obtain ⟨hkey, b, hb, hblock, hlock, htells⟩ := tells_of_leak? hleak
  have hname : s.function = l.function := by
    rw [← Model.name_of_function? hf, (Prod.mk.inj hkey).1]
  have hencloses : Encloses m l.function r b s :=
    ⟨hname, hblock, (excludes_iff m s b.name).mp hlock⟩
  have hs : s ∈ m.sections := by simp [hsections]
  rw [hname] at hf
  refine ⟨f, r, b, s, ⟨hf, hr, hb, (isGuarded_iff_encloses m _ r b).mpr ⟨s, hs, hencloses⟩⟩,
    ⟨before, after, hsections, hencloses, ?_⟩, htells⟩
  -- An earlier section that encloses the return would have given a leak at the same position.
  intro s' hs' hencloses'
  obtain ⟨l', hl', hkey'⟩ := (exists_mem_leaks_iff m s' l.function l.index).mpr
    ⟨f, r, b, hf, hr, hb, hencloses'⟩
  exact List.find?_eq_none.mp (hnone s' hs') l' hl' (by simpa using hkey')

/-- **The returns that leak are reported, and nothing else.** Whatever the sections of the unit are,
    the rule returns one candidate for each return that leaks, and the candidate names the lock of
    the first section that encloses the return. -/
theorem evaluate_eq_leaks (m : Model) (s : RuleSettings) :
    ∃ found : List ((String × Nat) × Candidate),
      rule.evaluate m s = .ok (found.map (·.2))
      ∧ (found.map (·.1)).Nodup
      ∧ (∀ name i, (name, i) ∈ found.map (·.1) ↔ ∃ f r b, Leaks m name i f r b)
      ∧ ∀ name i c, ((name, i), c) ∈ found → ∃ f r b s, Leaks m name i f r b
        ∧ FirstIn (Encloses m name r b) m.sections s ∧ Tells m f r b s c := by
  let key (l : Leak) : String × Nat := (l.function, l.index)
  refine ⟨(novel key [] (allLeaks m)).map fun l => (key l, l.candidate), ?_, ?_, ?_, ?_⟩
  · rw [List.map_map]
    rfl
  · rw [List.map_map]
    exact novel_keys_nodup key [] (allLeaks m)
  · intro name i
    rw [List.map_map]
    exact (mem_keys_novel_iff key (allLeaks m) (name, i)).trans (mem_allLeaks_keys_iff m name i)
  · intro name i c hreport
    obtain ⟨l, hl, hsite⟩ := List.mem_map.mp hreport
    obtain ⟨hkey, rfl⟩ := Prod.mk.inj hsite
    obtain ⟨rfl, rfl⟩ := Prod.mk.inj hkey
    exact tells_of_mem_novel hl

end LeakedReference

end Hazard
