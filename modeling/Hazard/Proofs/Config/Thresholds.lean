import Hazard.Proofs.Config.Enabled
import Hazard.Proofs.Pattern.Names

set_option autoImplicit false

/-! # The thresholds that a configuration admits

A rule reads its thresholds by name and uses them as they are: it compares a whole number with a
count, and it reads a list of texts as patterns. `ThresholdSpec.Admits` says what a threshold has to
be for this, and `RuleInfo.Admits` that there is such a value for each threshold of a rule. The
defaults are of this kind, and so is what a configuration puts in their place. -/

namespace Hazard

/-- A value that a rule can use as a threshold: a whole number within the bounds, or patterns that
    can be read. -/
inductive ThresholdSpec.Admits [CharacterNames] : ThresholdSpec → Value → Prop
  | count {default n : Int} {minimum maximum : Option Number}
      (hmin : ∀ b ∈ minimum, (Number.int n).lt b = false)
      (hmax : ∀ b ∈ maximum, b.lt (.int n) = false) :
      Admits (.count default minimum maximum) (.int n)
  | patterns {default ps : List String} (h : ∀ p ∈ ps, ∃ q, Pattern.parse p = .ok q) :
      Admits (.patterns default) (.texts ps)

/-- Every threshold of the rule has a value that the rule can use. -/
def RuleInfo.Admits [CharacterNames] (r : RuleInfo) (ts : Thresholds) : Prop :=
  ∀ name spec, r.thresholds.lookup name = some spec → ∃ t, ts.lookup name = some t ∧ spec.Admits t

/-! ## Values that are given -/

namespace ThresholdSpec

theorem lt_minimum_of_checkMinimum {name : String} {n : Int} {minimum : Option Number}
    (h : checkMinimum name n minimum = .ok ()) : ∀ b ∈ minimum, (Number.int n).lt b = false := by
  intro b hb
  obtain rfl := hb
  rw [checkMinimum] at h
  split_ifs at h with hlt
  · exact absurd h (Configuring.refuse_ne_ok _ _)
  · simpa using hlt

theorem maximum_lt_of_checkMaximum {name : String} {n : Int} {maximum : Option Number}
    (h : checkMaximum name n maximum = .ok ()) : ∀ b ∈ maximum, b.lt (.int n) = false := by
  intro b hb
  obtain rfl := hb
  rw [checkMaximum] at h
  split_ifs at h with hlt
  · exact absurd h (Configuring.refuse_ne_ok _ _)
  · simpa using hlt

theorem parse_of_validatePatterns [CharacterNames] {name : String} {values : List Value}
    {ps : List String} (h : validatePatterns name values = .ok ps) :
    ∀ p ∈ ps, ∃ q, Pattern.parse p = .ok q := by
  fun_induction validatePatterns name values generalizing ps with
  | case1 =>
      obtain rfl := (pure_eq_ok_iff _ _).mp h
      simp
  | case2 p rest q hq ih =>
      obtain ⟨ps', hrest, hps⟩ := (bind_eq_ok_iff _ _ _).mp h
      obtain rfl := (pure_eq_ok_iff _ _).mp hps
      exact List.forall_mem_cons.mpr ⟨⟨q, hq⟩, ih hrest⟩
  | case3 => exact absurd h (throw_ne_ok _ _)
  | case4 => exact absurd h (Configuring.refuse_ne_ok _ _)
  | case5 => exact absurd h (Configuring.refuse_ne_ok _ _)

theorem admits_of_validate [CharacterNames] {spec : ThresholdSpec} {name : String} {value t : Value}
    (h : spec.validate name value = .ok t) : spec.Admits t := by
  cases spec with
  | count default minimum maximum =>
      obtain ⟨n, hn, ht⟩ := (bind_eq_ok_iff _ _ _).mp h
      obtain rfl := (pure_eq_ok_iff _ _).mp ht
      unfold validateCount at hn
      split at hn
      next =>
        obtain ⟨_, hmin, hn⟩ := (bind_eq_ok_iff _ _ _).mp hn
        obtain ⟨_, hmax, hn⟩ := (bind_eq_ok_iff _ _ _).mp hn
        obtain rfl := (pure_eq_ok_iff _ _).mp hn
        exact .count (lt_minimum_of_checkMinimum hmin) (maximum_lt_of_checkMaximum hmax)
      next => exact absurd hn (Configuring.refuse_ne_ok _ _)
  | patterns default =>
      unfold validate at h
      dsimp only at h
      split at h
      next =>
        obtain ⟨ps, hps, ht⟩ := (bind_eq_ok_iff _ _ _).mp h
        obtain rfl := (pure_eq_ok_iff _ _).mp ht
        exact .patterns (parse_of_validatePatterns hps)
      next => exact absurd h (Configuring.refuse_ne_ok _ _)

end ThresholdSpec

/-! ## Settings -/

namespace RuleSettings

theorem lookup_putThreshold (name : String) (t : Value) (ts : Thresholds) (key : String) :
    (putThreshold name t ts).lookup key = if key = name then some t else ts.lookup key := by
  induction ts with
  | nil =>
      rw [putThreshold, List.lookup_cons, List.lookup_nil]
      by_cases hkey : key = name
      · simp [hkey]
      · simp [hkey, beq_false_of_ne hkey]
  | cons entry rest ih =>
      obtain ⟨n, old⟩ := entry
      rw [putThreshold]
      by_cases hn : n = name
      · subst hn
        by_cases hkey : key = n
        · simp [hkey]
        · simp [List.lookup_cons, hkey, beq_false_of_ne hkey]
      · rw [if_neg (by simpa using hn), List.lookup_cons, List.lookup_cons, ih]
        by_cases hkey : key = n
        · simp [hkey, hn]
        · simp [beq_false_of_ne hkey]

variable {r : RuleInfo} {ts ts' : Thresholds}

theorem admits_putThreshold [CharacterNames] {name : String} {spec : ThresholdSpec} {t : Value}
    (h : r.Admits ts) (hspec : r.thresholds.lookup name = some spec) (ht : spec.Admits t) :
    r.Admits (putThreshold name t ts) := by
  intro key spec' hspec'
  rw [lookup_putThreshold]
  by_cases hkey : key = name
  · obtain rfl : spec = spec' := by
      rw [hkey, hspec] at hspec'
      exact Option.some.inj hspec'
    exact ⟨t, if_pos hkey, ht⟩
  · rw [if_neg hkey]
    exact h key spec' hspec'

/-- A threshold is read under its name, which is a text, and put in the place of the value that it
    had. -/
theorem readThresholds_cons_eq_ok_iff [CharacterNames] (r : RuleInfo) (ts ts' : Thresholds)
    (key : Scalar) (value : Value) (rest : Entries) :
    readThresholds r ts ((key, value) :: rest) = .ok ts' ↔
      ∃ name spec t, key = .text name ∧ r.thresholds.lookup name = some spec
        ∧ spec.validate (r.id ++ "." ++ name) value = .ok t
        ∧ readThresholds r (putThreshold name t ts) rest = .ok ts' := by
  constructor
  · intro h
    unfold readThresholds at h
    dsimp only at h
    split at h
    next =>
      obtain ⟨_, _, h⟩ := (bind_eq_ok_iff _ _ _).mp h
      exact absurd h (Configuring.refuse_ne_ok _ _)
    next spec hspec =>
      obtain ⟨t, ht, h⟩ := (bind_eq_ok_iff _ _ _).mp h
      -- Only a text can be the name of a threshold.
      split at hspec
      next name _ => exact ⟨name, spec, t, rfl, hspec, ht, h⟩
      next => exact absurd hspec (by simp)
  · rintro ⟨name, spec, t, rfl, hspec, ht, h⟩
    unfold readThresholds
    simp only [hspec]
    exact (bind_eq_ok_iff _ _ _).mpr ⟨t, ht, h⟩

/-- Reading the thresholds of a configuration one after the other keeps all of them usable. -/
theorem admits_of_readThresholds [CharacterNames] {entries : Entries} (hts : r.Admits ts)
    (h : readThresholds r ts entries = .ok ts') : r.Admits ts' := by
  induction entries generalizing ts with
  | nil =>
      obtain rfl := (pure_eq_ok_iff _ _).mp h
      exact hts
  | cons entry rest ih =>
      obtain ⟨name, spec, t, _, hspec, ht, h⟩ :=
        (readThresholds_cons_eq_ok_iff r ts ts' entry.1 entry.2 rest).mp h
      exact ih (admits_putThreshold hts hspec (ThresholdSpec.admits_of_validate ht)) h

theorem admits_of_readThresholdField [CharacterNames] {raw : Entries}
    (hdefaults : r.Admits r.defaults.thresholds) (h : readThresholdField r raw = .ok ts) :
    r.Admits ts := by
  unfold readThresholdField at h
  split at h
  next =>
    obtain rfl := (pure_eq_ok_iff _ _).mp h
    exact hdefaults
  next value _ =>
    split_ifs at h
    · obtain rfl := (pure_eq_ok_iff _ _).mp h
      exact hdefaults
    · split at h
      next => exact admits_of_readThresholds hdefaults h
      next => exact absurd h (Configuring.refuse_ne_ok _ _)

end RuleSettings

/-! ## Defaults -/

/-- The default patterns ask for no character by its name. -/
theorem HandlerSafety.parse_defaultPatterns [CharacterNames] :
    ∀ p ∈ defaultPatterns, ∃ q, Pattern.parse p = .ok q := by
  have hread : ∀ p ∈ defaultPatterns, (@Pattern.parse .nameless p).isOk = true := by decide +kernel
  exact fun p hp => Pattern.exists_of_isOk_nameless (hread p hp)

/-- The default of every threshold of every rule passes the check that other values have to pass. -/
theorem admits_default [CharacterNames] {r : Rule} (hr : r ∈ rules) :
    ∀ threshold ∈ r.thresholds, threshold.2.Admits threshold.2.default := by
  simp only [rules, List.mem_cons, List.not_mem_nil, or_false] at hr
  rcases hr with rfl | rfl | rfl | rfl | rfl | rfl | rfl | rfl | rfl | rfl
  · exact List.forall_mem_singleton.mpr (.patterns HandlerSafety.parse_defaultPatterns)
  · exact List.forall_mem_singleton.mpr (.count (by decide) (by decide))
  · exact List.forall_mem_nil _
  · exact List.forall_mem_singleton.mpr (.count (by decide) (by decide))
  · exact List.forall_mem_nil _
  · exact List.forall_mem_singleton.mpr (.count (by decide) (by decide))
  · exact List.forall_mem_singleton.mpr (.count (by decide) (by decide))
  · exact List.forall_mem_nil _
  · exact List.forall_mem_nil _
  · exact List.forall_mem_nil _

theorem RuleInfo.lookup_defaults (r : RuleInfo) (name : String) :
    r.defaults.thresholds.lookup name = (r.thresholds.lookup name).map ThresholdSpec.default := by
  rw [defaults]
  induction r.thresholds with
  | nil => rfl
  | cons threshold rest ih =>
      rw [List.map_cons, List.lookup_cons, List.lookup_cons, ih]
      cases name == threshold.1 with
      | true => rfl
      | false => rfl

theorem admits_defaults [CharacterNames] {r : Rule} (hr : r ∈ rules) :
    r.toRuleInfo.Admits r.defaults.thresholds := by
  intro name spec hspec
  obtain ⟨before, after, hsplit, _⟩ := List.lookup_eq_some_iff.mp hspec
  have hmem : (name, spec) ∈ r.thresholds := by simp [hsplit]
  refine ⟨spec.default, ?_, admits_default hr (name, spec) hmem⟩
  rw [RuleInfo.lookup_defaults, hspec]
  rfl

/-! ## Configurations -/

/-- The thresholds in a catalog can be used by the rules that they are for. -/
def Catalog.Admissible [CharacterNames] (c : Catalog) : Prop :=
  ∀ s ∈ c.settings, ∃ r ∈ rules, s.rule = r.id ∧ r.toRuleInfo.Admits s.thresholds

theorem Config.catalog_admissible_of_ofValue [CharacterNames] {v : Value} {c : Config}
    (h : ofValue v = .ok c) : c.catalog.Admissible := by
  intro s hs
  obtain ⟨_, hcatalog⟩ := catalog_of_ofValue h
  obtain ⟨said, hsettings⟩ := Catalog.ofValue_eq_ok hcatalog
  obtain ⟨r, hr, hread⟩ := exists_of_mem_mapM hsettings hs
  obtain ⟨hid, raw, hthresholds⟩ := RuleSettings.ofValue_eq_ok hread
  exact ⟨r, hr, hid, RuleSettings.admits_of_readThresholdField (admits_defaults hr) hthresholds⟩

/-- A rule that is looked up gets thresholds that it can use. -/
theorem Catalog.Admissible.admits_of_enabled [CharacterNames] {c : Catalog} (h : c.Admissible)
    {found : List (Rule × RuleSettings)} (henabled : c.enabled = .ok found)
    {r : Rule × RuleSettings} (hr : r ∈ found) :
    r.1 ∈ rules ∧ r.1.toRuleInfo.Admits r.2.thresholds := by
  obtain ⟨s, hs, hfound⟩ := exists_of_mem_mapM henabled hr
  obtain ⟨r', hr', hid, hadmits⟩ := h s (List.mem_filter.mp hs).1
  rw [hid, rule?_eq_some hr'] at hfound
  obtain rfl := Except.ok.inj hfound
  exact ⟨hr', hadmits⟩

end Hazard
