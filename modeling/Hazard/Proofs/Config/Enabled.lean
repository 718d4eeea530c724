import Hazard.Config.Basic
import Hazard.Proofs.Except
import Hazard.Proofs.Rule.Origin

set_option autoImplicit false

/-! # The rules that a configuration enables

A catalog is a list of settings, and each of them names the rule that it is for. The rules that are
enabled are looked up by these names, so a catalog that names a rule of its own invention has none.
A catalog that comes from a configuration has one entry for each rule of the table, in the order of
the table, and whatever is enabled in it can be looked up. -/

namespace Hazard

theorem Configuring.refuse_ne_ok {α : Type} (e : ConfigError) (a : α) : refuse e ≠ .ok a :=
  nofun

/-! ## Known keys -/

/-- Every key is one of the given texts. -/
def Entries.Known (known : List String) (entries : Entries) : Prop :=
  ∀ k ∈ entries.map (·.1), ∃ name ∈ known, k = .text name

theorem isKnown_iff (known : List String) (k : Scalar) :
    unknownKeys.isKnown known k = true ↔ ∃ name ∈ known, k = .text name := by
  cases k <;> simp [unknownKeys.isKnown]

/-- Keys that are not known have a text to show, so none is shown only if there is none. -/
theorem unknownKeys_eq_nil_iff (known : List String) (entries : Entries) :
    unknownKeys known entries = .ok [] ↔ entries.Known known := by
  have hfilter : entries.filter (fun e => !unknownKeys.isKnown known e.1) = []
      ↔ entries.Known known := by
    simp [Entries.Known, ← isKnown_iff]
  rw [← hfilter]
  constructor
  · intro h
    obtain ⟨names, hnames, hsorted⟩ := (bind_eq_ok_iff _ _ _).mp h
    have hempty : (Text.sorted names).length = 0 := by
      rw [(pure_eq_ok_iff _ _).mp hsorted]
      rfl
    rw [Text.sorted, List.length_mergeSort, length_of_mapM_eq_ok hnames] at hempty
    exact List.length_eq_zero_iff.mp hempty
  · intro h
    refine (bind_eq_ok_iff _ _ _).mpr ⟨[], ?_, (pure_eq_ok_iff _ _).mpr List.mergeSort_nil⟩
    rw [h]
    rfl

/-- Unknown keys are refused before anything else is read. -/
theorem known_eq_ok_iff {α : Type} (known : List String) (entries : Entries)
    (error : List String → ConfigError) (rest : Configuring α) (a : α) :
    (do
      let unknown ← unknownKeys known entries
      if !unknown.isEmpty then Configuring.refuse (error unknown)
      rest) = .ok a ↔ entries.Known known ∧ rest = .ok a := by
  rw [← unknownKeys_eq_nil_iff, bind_eq_ok_iff]
  constructor
  · rintro ⟨unknown, hunknown, h⟩
    split_ifs at h with hempty
    · obtain ⟨_, hrefuse, _⟩ := (bind_eq_ok_iff _ _ _).mp h
      exact absurd hrefuse (Configuring.refuse_ne_ok _ _)
    · obtain rfl : unknown = [] := by simpa using hempty
      exact ⟨hunknown, h⟩
  · rintro ⟨hunknown, h⟩
    exact ⟨[], hunknown, h⟩

/-! ## Catalogs -/

variable [CharacterNames]

/-- What is known of settings that have been read: they are about their rule, and their thresholds
    are those of some mapping, which is empty where nothing is said about the rule. -/
theorem RuleSettings.ofValue_eq_ok {r : RuleInfo} {v : Option Value} {s : RuleSettings}
    (h : ofValue r v = .ok s) :
    s.rule = r.id ∧ ∃ raw, readThresholdField r raw = .ok s.thresholds := by
  unfold ofValue at h
  split at h
  · obtain rfl := (pure_eq_ok_iff _ _).mp h
    exact ⟨rfl, [], rfl⟩
  · obtain rfl := (pure_eq_ok_iff _ _).mp h
    exact ⟨rfl, [], rfl⟩
  · obtain rfl := (pure_eq_ok_iff _ _).mp h
    exact ⟨rfl, [], rfl⟩
  next raw =>
    obtain ⟨_, h⟩ := (known_eq_ok_iff _ _ _ _ _).mp h
    simp only [bind_eq_ok_iff, pure_eq_ok_iff] at h
    obtain ⟨enabled, _, severity, _, confidence, _, thresholds, hthresholds, rfl⟩ := h
    exact ⟨rfl, raw, hthresholds⟩
  · exact absurd h (Configuring.refuse_ne_ok _ _)

namespace Catalog

/-- The catalog has one entry for each rule, in the order of the table. -/
def Full (c : Catalog) : Prop := c.settings.map (·.rule) = rules.map (·.id)

/-- A catalog that has been read has the settings of each rule of the table, read from what is said
    about that rule. -/
theorem ofValue_eq_ok {v : Option Value} {c : Catalog} (h : ofValue v = .ok c) :
    ∃ said : String → Option Value,
      rules.mapM (fun r => RuleSettings.ofValue r.toRuleInfo (said r.id)) = .ok c.settings := by
  unfold ofValue at h
  split at h
  · obtain rfl := (pure_eq_ok_iff _ _).mp h
    exact ⟨fun _ => none, rfl⟩
  · obtain rfl := (pure_eq_ok_iff _ _).mp h
    exact ⟨fun _ => none, rfl⟩
  next raw =>
    obtain ⟨_, h⟩ := (known_eq_ok_iff _ _ _ _ _).mp h
    simp only [bind_eq_ok_iff, pure_eq_ok_iff] at h
    obtain ⟨settings, hsettings, rfl⟩ := h
    exact ⟨Entries.get? raw, hsettings⟩
  · exact absurd h (Configuring.refuse_ne_ok _ _)

theorem full_of_ofValue {v : Option Value} {c : Catalog} (h : ofValue v = .ok c) : c.Full := by
  obtain ⟨said, hsettings⟩ := ofValue_eq_ok h
  exact map_eq_of_mapM (·.rule) (·.id) (fun r s hs => (RuleSettings.ofValue_eq_ok hs).1) hsettings

/-- Whatever is enabled in a full catalog can be looked up. -/
theorem Full.exists_enabled {c : Catalog} (h : c.Full) : ∃ enabled, c.enabled = .ok enabled := by
  refine exists_mapM_eq_ok fun s hs => ?_
  have hid : s.rule ∈ rules.map (·.id) := by
    rw [← show c.settings.map (·.rule) = rules.map (·.id) from h]
    exact List.mem_map_of_mem (List.mem_filter.mp hs).1
  obtain ⟨r, hr, hrule⟩ := List.mem_map.mp hid
  refine ⟨(r, s), ?_⟩
  rw [← hrule, rule?_eq_some hr]

/-- The rules that are looked up are rules of the table. -/
theorem mem_rules_of_enabled {c : Catalog} {enabled : List (Rule × RuleSettings)}
    (h : c.enabled = .ok enabled) {r : Rule × RuleSettings} (hr : r ∈ enabled) : r.1 ∈ rules := by
  obtain ⟨s, _, hs⟩ := exists_of_mem_mapM h hr
  split at hs
  · next rule hrule =>
      obtain rfl := Except.ok.inj hs
      exact List.mem_of_find?_eq_some hrule
  · exact absurd hs nofun

/-- The rule that some settings are for. -/
def lookUp (s : RuleSettings) : Except ConfigError (Rule × RuleSettings) :=
  match rule? s.rule with
  | some r => .ok (r, s)
  | none => .error (.unknownRule s.rule)

theorem enabled_eq (c : Catalog) : c.enabled = (c.settings.filter (·.enabled)).mapM lookUp := rfl

theorem lookUp_eq_ok_iff (s : RuleSettings) (found : Rule × RuleSettings) :
    lookUp s = .ok found ↔ rule? s.rule = some found.1 ∧ found.2 = s := by
  unfold lookUp
  cases rule? s.rule with
  | none => exact iff_of_false nofun nofun
  | some r =>
      obtain ⟨rule, settings⟩ := found
      simp [eq_comm]

/-- A rule is looked up by its id. -/
theorem id_of_lookUp {s : RuleSettings} {found : Rule × RuleSettings} (h : lookUp s = .ok found) :
    found.1.id = s.rule := by
  have hfound := List.find?_some ((lookUp_eq_ok_iff s found).mp h).1
  exact beq_iff_eq.mp hfound

end Catalog

/-! ## Configurations -/

theorem Config.catalog_of_ofValue {v : Value} {c : Config} (h : ofValue v = .ok c) :
    ∃ said, Catalog.ofValue said = .ok c.catalog := by
  unfold ofValue at h
  split at h
  · obtain rfl := (pure_eq_ok_iff _ _).mp h
    exact ⟨none, rfl⟩
  · obtain ⟨_, h⟩ := (known_eq_ok_iff _ _ _ _ _).mp h
    simp only [bind_eq_ok_iff, pure_eq_ok_iff] at h
    obtain ⟨catalog, hcatalog, engine, _, rfl⟩ := h
    exact ⟨_, hcatalog⟩
  · exact absurd h (Configuring.refuse_ne_ok _ _)

theorem Config.catalog_full_of_ofValue {v : Value} {c : Config} (h : ofValue v = .ok c) :
    c.catalog.Full := by
  obtain ⟨said, hcatalog⟩ := catalog_of_ofValue h
  exact Catalog.full_of_ofValue hcatalog

end Hazard
