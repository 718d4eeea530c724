import Hazard.Proofs.Config.Thresholds
import Hazard.Proofs.Document.Breakdown

set_option autoImplicit false

/-! # Catalogs rule by rule

What a configuration says about one rule has nothing to do with what it says about another. So a
catalog can be put together from the catalogs of its rules: it can be read if each rule of it can be
read on its own, and then each rule has the settings that it would have on its own, or its defaults.
The order in which things are said is of no account either, be it that of the rules, that of the
settings of a rule or that of its thresholds.

Settings are looked up by their keys, so for them the order does not matter as long as no key comes
twice. Thresholds are read one after the other, each into the place of its default. There the order
does not matter because every threshold has a place of its own. -/

namespace Hazard

/-! ## Mappings in another order -/

namespace Entries

theorem get?_cons_self (k : String) (v : Value) (rest : Entries) :
    get? ((.text k, v) :: rest) k = some v := by
  rw [get?, if_pos (beq_self_eq_true k)]

theorem get?_cons_of_ne {entry : Scalar × Value} {k : String} (h : entry.1 ≠ .text k)
    (rest : Entries) : get? (entry :: rest) k = get? rest k := by
  obtain ⟨key, v⟩ := entry
  cases key with
  | text k' =>
      have hne : k' ≠ k := fun hk => h (congrArg Scalar.text hk)
      rw [get?, if_neg (by simpa using hne)]
  | null => rfl
  | bool b => rfl
  | int n => rfl
  | real x => rfl

theorem exists_get? {entries : Entries} {k : String} (h : .text k ∈ entries.map (·.1)) :
    ∃ v, entries.get? k = some v := by
  induction entries with
  | nil => simp at h
  | cons entry rest ih =>
      by_cases hk : entry.1 = .text k
      · obtain ⟨_, v⟩ := entry
        obtain rfl : _ = Scalar.text k := hk
        exact ⟨v, get?_cons_self k v rest⟩
      · rw [get?_cons_of_ne hk]
        exact ih ((List.mem_cons.mp h).resolve_left fun h => hk h.symm)

/-- The keys that are texts. -/
def names (entries : Entries) : List String :=
  (entries.map (·.1)).filterMap fun
    | .text k => some k
    | _ => none

theorem mem_names_of_mem {entries : Entries} {k : String} {v : Value}
    (h : (.text k, v) ∈ entries) : k ∈ entries.names :=
  List.mem_filterMap.mpr ⟨.text k, List.mem_map_of_mem h, rfl⟩

theorem nodup_names_tail {entry : Scalar × Value} {rest : Entries}
    (h : names (entry :: rest) |>.Nodup) : rest.names.Nodup :=
  h.sublist ((List.sublist_cons_self _ _).filterMap _)

theorem get?_eq_some_iff {entries : Entries} (h : entries.names.Nodup) (k : String) (v : Value) :
    entries.get? k = some v ↔ (.text k, v) ∈ entries := by
  refine ⟨mem_of_get?, fun hmem => ?_⟩
  induction entries with
  | nil => simp at hmem
  | cons entry rest ih =>
      rcases List.mem_cons.mp hmem with rfl | hrest
      · exact get?_cons_self k v rest
      · have hne : entry.1 ≠ .text k := by
          rintro hk
          have hnames : names (entry :: rest) = k :: names rest := by
            rw [names, List.map_cons, hk]
            rfl
          rw [hnames] at h
          exact (List.nodup_cons.mp h).1 (mem_names_of_mem hrest)
        rw [get?_cons_of_ne hne]
        exact ih (nodup_names_tail h) hrest

/-- The same keys in some order, with related values. -/
def Reordered (R : Value → Value → Prop) (es fs : Entries) : Prop :=
  ∃ mid : Entries, es.Perm mid ∧ List.Forall₂ (fun e f => e.1 = f.1 ∧ R e.2 f.2) mid fs

namespace Reordered

variable {R : Value → Value → Prop} {es fs : Entries}

theorem perm_keys (h : Reordered R es fs) : (es.map (·.1)).Perm (fs.map (·.1)) := by
  obtain ⟨mid, hperm, hvalues⟩ := h
  have hkeys : List.Forall₂ Eq (mid.map (·.1)) (fs.map (·.1)) := by
    rw [List.forall₂_map_left_iff, List.forall₂_map_right_iff]
    exact hvalues.imp fun _ _ h => h.1
  rw [List.forall₂_eq_eq_eq] at hkeys
  exact hkeys ▸ hperm.map _

theorem known_iff (h : Reordered R es fs) (known : List String) :
    es.Known known ↔ fs.Known known := by
  simp only [Known, h.perm_keys.mem_iff]

/-- A key has related values, whatever its place. -/
theorem rel_get? (h : Reordered R es fs) (hnames : es.names.Nodup) (k : String) :
    Option.Rel R (es.get? k) (fs.get? k) := by
  obtain ⟨mid, hperm, hvalues⟩ := h
  have hget : es.get? k = mid.get? k := by
    have hmid : mid.names.Nodup := ((hperm.map _).filterMap _).nodup_iff.mp hnames
    ext v
    rw [get?_eq_some_iff hnames, get?_eq_some_iff hmid, hperm.mem_iff]
  rw [hget]
  clear hget hperm
  induction hvalues with
  | nil => exact .none
  | @cons e f _ _ he _ ih =>
      obtain ⟨key, v⟩ := e
      obtain ⟨_, w⟩ := f
      obtain ⟨rfl, hvw⟩ := he
      by_cases hk : key = .text k
      · subst hk
        rw [get?_cons_self, get?_cons_self]
        exact .some hvw
      · rw [get?_cons_of_ne hk, get?_cons_of_ne hk]
        exact ih

theorem perm (h : Reordered Eq es fs) : es.Perm fs := by
  obtain ⟨mid, hperm, hvalues⟩ := h
  have hentries : List.Forall₂ Eq mid fs := hvalues.imp fun _ _ h => Prod.ext h.1 h.2
  rw [List.forall₂_eq_eq_eq] at hentries
  exact hentries ▸ hperm

end Reordered

end Entries

namespace Value

/-- The same value up to the order of its entries, with related values under the same keys. -/
inductive Reordered (R : Value → Value → Prop) : Value → Value → Prop
  | same (v : Value) : Reordered R v v
  | entries {es fs : Entries} (h : es.Reordered R fs) : Reordered R (.mapping es) (.mapping fs)

/-- No mapping in the value has two entries with the same text as their key. -/
inductive DistinctNames : Value → Prop
  | scalar (s : Scalar) : DistinctNames (.scalar s)
  | list {items : List Value} (h : ∀ v ∈ items, DistinctNames v) : DistinctNames (.list items)
  | mapping {entries : Entries} (names : entries.names.Nodup)
      (values : ∀ e ∈ entries, DistinctNames e.2) : DistinctNames (.mapping entries)

theorem DistinctNames.names {entries : Entries} (h : (Value.mapping entries).DistinctNames) :
    entries.names.Nodup := by
  cases h with
  | mapping names values => exact names

theorem DistinctNames.get? {entries : Entries} (h : (Value.mapping entries).DistinctNames)
    {k : String} {v : Value} (hget : entries.get? k = some v) : v.DistinctNames := by
  cases h with
  | mapping names values => exact values _ (Entries.mem_of_get? hget)

end Value

/-! ## The settings of a rule -/

namespace RuleSettings

variable {r : RuleInfo} {ts ts' : Thresholds}

/-- Thresholds that have a place do not get into each other's way. -/
theorem putThreshold_comm {a b : String} (hne : a ≠ b) {x₀ y₀ : Value}
    (ha : ts.lookup a = some x₀) (hb : ts.lookup b = some y₀) (x y : Value) :
    putThreshold a x (putThreshold b y ts) = putThreshold b y (putThreshold a x ts) := by
  induction ts with
  | nil => simp at ha
  | cons entry rest ih =>
      obtain ⟨name, old⟩ := entry
      by_cases hname : name = a
      · simp [putThreshold, hname, hne]
      · by_cases hname' : name = b
        · simp [putThreshold, hname', hne.symm]
        · have ha' : rest.lookup a = some x₀ := by
            simpa [List.lookup_cons, beq_false_of_ne (Ne.symm hname)] using ha
          have hb' : rest.lookup b = some y₀ := by
            simpa [List.lookup_cons, beq_false_of_ne (Ne.symm hname')] using hb
          simp [putThreshold, hname, hname', ih ha' hb']

theorem readThresholds_swap [CharacterNames] {e f : Scalar × Value} {rest : Entries}
    (hnames : Entries.names (e :: f :: rest) |>.Nodup) (hts : r.Admits ts)
    (h : readThresholds r ts (e :: f :: rest) = .ok ts') :
    readThresholds r ts (f :: e :: rest) = .ok ts' := by
  obtain ⟨key, v⟩ := e
  obtain ⟨key', w⟩ := f
  obtain ⟨a, spec, x, rfl, hspec, hx, h⟩ := (readThresholds_cons_eq_ok_iff _ _ _ _ _ _).mp h
  obtain ⟨b, spec', y, rfl, hspec', hy, h⟩ := (readThresholds_cons_eq_ok_iff _ _ _ _ _ _).mp h
  have hne : a ≠ b := by
    rintro rfl
    exact (List.nodup_cons.mp hnames).1 List.mem_cons_self
  obtain ⟨x₀, hx₀, _⟩ := hts a spec hspec
  obtain ⟨y₀, hy₀, _⟩ := hts b spec' hspec'
  rw [← putThreshold_comm hne hx₀ hy₀] at h
  refine (readThresholds_cons_eq_ok_iff _ _ _ _ _ _).mpr ⟨b, spec', y, rfl, hspec', hy, ?_⟩
  exact (readThresholds_cons_eq_ok_iff _ _ _ _ _ _).mpr ⟨a, spec, x, rfl, hspec, hx, h⟩

/-- Thresholds can be read in any order. -/
theorem readThresholds_perm [CharacterNames] {es fs : Entries} (hperm : es.Perm fs)
    (hnames : es.names.Nodup) (hts : r.Admits ts) :
    readThresholds r ts es = .ok ts' ↔ readThresholds r ts fs = .ok ts' := by
  induction hperm generalizing ts with
  | nil => exact Iff.rfl
  | cons entry _ ih =>
      obtain ⟨key, v⟩ := entry
      rw [readThresholds_cons_eq_ok_iff, readThresholds_cons_eq_ok_iff]
      refine exists_congr fun name => exists_congr fun spec => exists_congr fun t =>
        and_congr_right fun _ => and_congr_right fun hspec => and_congr_right fun ht => ?_
      have hadmits := ThresholdSpec.admits_of_validate ht
      exact ih (Entries.nodup_names_tail hnames) (admits_putThreshold hts hspec hadmits)
  | swap e f rest =>
      have hnames' : (Entries.names (e :: f :: rest)).Nodup :=
        (((List.Perm.swap e f rest).map _).filterMap _).nodup_iff.mp hnames
      exact ⟨readThresholds_swap hnames hts, readThresholds_swap hnames' hts⟩
  | trans hperm _ ih ih' =>
      exact (ih hnames hts).trans (ih' (((hperm.map _).filterMap _).nodup_iff.mp hnames) hts)

variable {es fs : Entries}

theorem readThresholdField_reordered [CharacterNames] (hdefaults : r.Admits r.defaults.thresholds)
    (hdistinct : (Value.mapping es).DistinctNames) (h : es.Reordered (Value.Reordered Eq) fs) :
    readThresholdField r es = .ok ts ↔ readThresholdField r fs = .ok ts := by
  have hrel := h.rel_get? hdistinct.names "thresholds"
  have hvalue := fun v => hdistinct.get? (k := "thresholds") (v := v)
  unfold readThresholdField
  generalize es.get? "thresholds" = said at hrel hvalue
  generalize fs.get? "thresholds" = said' at hrel
  cases hrel with
  | none => exact Iff.rfl
  | some hvw =>
      cases hvw with
      | same => exact Iff.rfl
      | @entries es' fs' hentries =>
          have hempty : es'.isEmpty = fs'.isEmpty := by
            rw [Bool.eq_iff_iff, List.isEmpty_iff_length_eq_zero, List.isEmpty_iff_length_eq_zero,
              hentries.perm.length_eq]
          by_cases hfs : fs'.isEmpty = true
          · simp only [Value.isEmpty, hempty, hfs, if_true]
          · simp only [Value.isEmpty, hempty, hfs]
            exact readThresholds_perm hentries.perm (hvalue _ rfl).names hdefaults

theorem readEnabled_reordered (hnames : es.names.Nodup)
    (h : es.Reordered (Value.Reordered Eq) fs) (id : String) (b : Bool) :
    readEnabled id es = .ok b ↔ readEnabled id fs = .ok b := by
  have hrel := h.rel_get? hnames "enabled"
  unfold readEnabled
  generalize es.get? "enabled" = said at hrel
  generalize fs.get? "enabled" = said' at hrel
  cases hrel with
  | none => exact Iff.rfl
  | some hvw =>
      cases hvw with
      | same => exact Iff.rfl
      | entries => exact Iff.rfl

theorem readLevel_reordered (hnames : es.names.Nodup) (h : es.Reordered (Value.Reordered Eq) fs)
    (levels : List String) (key : String) (error : Value → ConfigError) (level : Option String) :
    readLevel levels es key error = .ok level ↔ readLevel levels fs key error = .ok level := by
  have hrel := h.rel_get? hnames key
  unfold readLevel
  generalize es.get? key = said at hrel
  generalize fs.get? key = said' at hrel
  cases hrel with
  | none => exact Iff.rfl
  | some hvw =>
      cases hvw with
      | same => exact Iff.rfl
      | entries =>
          exact iff_of_false (Configuring.refuse_ne_ok _ _) (Configuring.refuse_ne_ok _ _)

theorem ofValue_mapping_eq_ok_iff [CharacterNames] (raw : Entries) (s : RuleSettings) :
    ofValue r (some (.mapping raw)) = .ok s ↔ raw.Known keys ∧
      ∃ enabled, readEnabled r.id raw = .ok enabled ∧
      ∃ severity, readLevel severityLevels raw "severity" (.badSeverity r.id) = .ok severity ∧
      ∃ confidence, readLevel confidenceLevels raw "confidence" (.badConfidence r.id)
        = .ok confidence ∧
      ∃ thresholds, readThresholdField r raw = .ok thresholds ∧
        { rule := r.id, enabled, severity, confidence, thresholds } = s := by
  refine (known_eq_ok_iff _ _ _ _ _).trans (and_congr_right fun _ => ?_)
  simp only [bind_eq_ok_iff, pure_eq_ok_iff]

/-- The settings of a rule and its thresholds can be given in any order. -/
theorem ofValue_reordered [CharacterNames] (hdefaults : r.Admits r.defaults.thresholds)
    {said said' : Option Value} (hdistinct : ∀ v ∈ said, v.DistinctNames)
    (h : Option.Rel (Value.Reordered (Value.Reordered Eq)) said said') (s : RuleSettings) :
    ofValue r said = .ok s ↔ ofValue r said' = .ok s := by
  cases h with
  | none => exact Iff.rfl
  | some hvw =>
      cases hvw with
      | same => exact Iff.rfl
      | @entries es fs hentries =>
          have hraw : (Value.mapping es).DistinctNames := hdistinct _ rfl
          simp only [ofValue_mapping_eq_ok_iff, hentries.known_iff,
            readEnabled_reordered hraw.names hentries, readLevel_reordered hraw.names hentries,
            readThresholdField_reordered hdefaults hraw hentries]

end RuleSettings

/-! ## Catalogs -/

theorem eq_of_id_eq [CharacterNames] {r r' : Rule} (hr : r ∈ rules) (hr' : r' ∈ rules)
    (h : r.id = r'.id) : r = r' := by
  refine Option.some.inj ((rule?_eq_some hr).symm.trans ?_)
  rw [h, rule?_eq_some hr']

namespace Catalog

section

variable [CharacterNames]

theorem ofValue_mapping_eq_ok_iff (raw : Entries) (c : Catalog) :
    ofValue (some (.mapping raw)) = .ok c ↔ raw.Known (rules.map (·.id)) ∧
      rules.mapM (fun r => RuleSettings.ofValue r.toRuleInfo (raw.get? r.id)) = .ok c.settings := by
  refine (known_eq_ok_iff _ _ _ _ _).trans (and_congr_right fun _ => ?_)
  simp only [bind_eq_ok_iff, pure_eq_ok_iff]
  constructor
  · rintro ⟨settings, hsettings, rfl⟩
    exact hsettings
  · exact fun h => ⟨c.settings, h, rfl⟩

variable {raw : Entries} {c : Catalog} {r : Rule}

theorem exists_ofValue_iff : (∃ c, ofValue (some (.mapping raw)) = .ok c) ↔
    raw.Known (rules.map (·.id)) ∧
      ∀ r ∈ rules, ∃ s, RuleSettings.ofValue r.toRuleInfo (raw.get? r.id) = .ok s := by
  simp only [ofValue_mapping_eq_ok_iff]
  constructor
  · rintro ⟨c, hknown, hsettings⟩
    exact ⟨hknown, fun r hr => (exists_of_mapM_eq_ok hsettings hr :)⟩
  · rintro ⟨hknown, hrules⟩
    obtain ⟨settings, hsettings⟩ := exists_mapM_eq_ok hrules
    exact ⟨⟨settings⟩, hknown, hsettings⟩

/-- The entry of a rule is what is read from what is said about it. -/
theorem get_of_ofValue (h : ofValue (some (.mapping raw)) = .ok c) (hr : r ∈ rules)
    {s : RuleSettings} (hs : RuleSettings.ofValue r.toRuleInfo (raw.get? r.id) = .ok s) :
    c.get r.id = .ok s := by
  obtain ⟨_, hsettings⟩ := (ofValue_mapping_eq_ok_iff raw c).mp h
  have hmem : s ∈ c.settings := mem_of_mapM_eq_ok hsettings hr hs
  have hrule : s.rule = r.id := (RuleSettings.ofValue_eq_ok hs).1
  cases hfind : c.settings.find? (·.rule == r.id) with
  | none => exact absurd (beq_iff_eq.mpr hrule) (List.find?_eq_none.mp hfind s hmem)
  | some s' =>
      obtain ⟨r', hr', hs'⟩ := exists_of_mem_mapM hsettings (List.mem_of_find?_eq_some hfind)
      have hrule' : s'.rule = r.id := by simpa using List.find?_some hfind
      obtain rfl := eq_of_id_eq hr' hr ((RuleSettings.ofValue_eq_ok hs').1.symm.trans hrule')
      obtain rfl := Except.ok.inj (hs'.symm.trans hs)
      rw [get, hfind]

/-- A rule can be read on its own if what is said about it can be read. -/
theorem exists_ofValue_singleton_iff (hr : r ∈ rules) (v : Value) :
    (∃ c, ofValue (some (.mapping [(.text r.id, v)])) = .ok c) ↔
      ∃ s, RuleSettings.ofValue r.toRuleInfo (some v) = .ok s := by
  rw [exists_ofValue_iff]
  constructor
  · rintro ⟨_, hrules⟩
    simpa only [Entries.get?_cons_self] using hrules r hr
  · rintro ⟨s, hs⟩
    refine ⟨?_, fun r' hr' => ?_⟩
    · exact List.forall_mem_singleton.mpr ⟨r.id, List.mem_map_of_mem hr, rfl⟩
    · by_cases hid : r.id = r'.id
      · obtain rfl := eq_of_id_eq hr hr' hid
        exact ⟨s, by rw [Entries.get?_cons_self, hs]⟩
      · rw [Entries.get?_cons_of_ne (fun h => hid (Scalar.text.inj h))]
        exact ⟨r'.defaults, rfl⟩

/-- The rules, their settings and their thresholds can be given in any order. -/
theorem ofValue_reordered {raw' : Entries} (hdistinct : (Value.mapping raw).DistinctNames)
    (h : raw.Reordered (Value.Reordered (Value.Reordered Eq)) raw') :
    ofValue (some (.mapping raw)) = .ok c ↔ ofValue (some (.mapping raw')) = .ok c := by
  rw [ofValue_mapping_eq_ok_iff, ofValue_mapping_eq_ok_iff, h.known_iff]
  refine and_congr_right fun _ => mapM_eq_ok_congr (fun r hr s => ?_) c.settings
  exact RuleSettings.ofValue_reordered (admits_defaults hr) (fun v hv => hdistinct.get? hv)
    (h.rel_get? hdistinct.names r.id) s

/-- **A catalog is read rule by rule.** What is said about the rules can be read if each key is the
    id of a rule and what is said about that rule can be read on its own. The catalog has one entry
    for each rule, in the order of the table. The entry of a rule is the one that it has on its own,
    or its defaults where nothing is said about it. And if no key comes twice, nothing of this
    depends on the order of the rules, of their settings and of their thresholds. -/
theorem ofValue_composes (raw : Entries) :
    ((∃ c, ofValue (some (.mapping raw)) = .ok c) ↔
      ∀ k ∈ raw.map (·.1), ∃ id ∈ rules.map (·.id), k = .text id ∧
        ∃ v, raw.get? id = some v ∧ ∃ c, ofValue (some (.mapping [(k, v)])) = .ok c)
    ∧ (∀ c, ofValue (some (.mapping raw)) = .ok c →
      c.settings.map (·.rule) = rules.map (·.id) ∧
      ∀ r ∈ rules, (raw.get? r.id = none → c.get r.id = .ok r.defaults) ∧
        ∀ v, raw.get? r.id = some v → ∃ own s,
          ofValue (some (.mapping [(.text r.id, v)])) = .ok own ∧ own.get r.id = .ok s
            ∧ c.get r.id = .ok s)
    ∧ ∀ raw', (Value.mapping raw).DistinctNames →
      raw.Reordered (Value.Reordered (Value.Reordered Eq)) raw' →
        ∀ c, ofValue (some (.mapping raw)) = .ok c ↔ ofValue (some (.mapping raw')) = .ok c := by
  refine ⟨⟨fun h k hk => ?_, fun h => ?_⟩, fun c hc => ⟨full_of_ofValue hc, fun r hr => ?_⟩,
    fun raw' hdistinct hraw' c => ofValue_reordered hdistinct hraw'⟩
  · obtain ⟨hknown, hrules⟩ := exists_ofValue_iff.mp h
    obtain ⟨id, hid, rfl⟩ := hknown k hk
    obtain ⟨r, hr, rfl⟩ := List.mem_map.mp hid
    obtain ⟨v, hv⟩ := Entries.exists_get? hk
    refine ⟨r.id, hid, rfl, v, hv, (exists_ofValue_singleton_iff hr v).mpr ?_⟩
    exact hv ▸ hrules r hr
  · refine exists_ofValue_iff.mpr ⟨fun k hk => ?_, fun r hr => ?_⟩
    · obtain ⟨id, hid, hkey, _⟩ := h k hk
      exact ⟨id, hid, hkey⟩
    · cases hv : raw.get? r.id with
      | none => exact ⟨r.defaults, rfl⟩
      | some v =>
          have hk : .text r.id ∈ raw.map (·.1) := List.mem_map_of_mem (Entries.mem_of_get? hv)
          obtain ⟨id, _, hkey, v', hv', hown⟩ := h _ hk
          obtain rfl := Scalar.text.inj hkey
          obtain rfl := Option.some.inj (hv.symm.trans hv')
          exact (exists_ofValue_singleton_iff hr v).mp hown
  · refine ⟨fun hv => get_of_ofValue hc hr (by rw [hv]; rfl), fun v hv => ?_⟩
    obtain ⟨s, hs⟩ := (exists_ofValue_iff.mp ⟨c, hc⟩).2 r hr
    obtain ⟨own, hown⟩ := (exists_ofValue_singleton_iff hr v).mpr ⟨s, hv ▸ hs⟩
    refine ⟨own, s, hown, get_of_ofValue hown hr ?_, get_of_ofValue hc hr hs⟩
    rw [Entries.get?_cons_self, ← hv, hs]

end

open scoped CharacterNames

/-- Two rules, given in either order, and the settings of one of them in either order. -/
theorem ofValue_composes_swapped :
    let settings : Entries := [(.text "enabled", .bool false), (.text "severity", .text "low")]
    ∃ c, ofValue (some (.mapping [(.text "RC.2", .null), (.text "RC.4", .mapping settings)]))
        = .ok c
      ∧ ofValue (some (.mapping [(.text "RC.4", .mapping settings.reverse), (.text "RC.2", .null)]))
        = .ok c
      ∧ ∃ own s, ofValue (some (.mapping [(.text "RC.4", .mapping settings)])) = .ok own
        ∧ own.get "RC.4" = .ok s ∧ c.get "RC.4" = .ok s := by
  intro settings
  let raw : Entries := [(.text "RC.2", .null), (.text "RC.4", .mapping settings)]
  obtain ⟨_, hentries, horder⟩ := ofValue_composes raw
  have hdistinct : (Value.mapping raw).DistinctNames := by
    refine .mapping (by decide) (List.forall_mem_cons.mpr ⟨.scalar _, ?_⟩)
    refine List.forall_mem_singleton.mpr (.mapping (by decide) ?_)
    exact List.forall_mem_cons.mpr ⟨.scalar _, List.forall_mem_singleton.mpr (.scalar _)⟩
  have hreordered : raw.Reordered (Value.Reordered (Value.Reordered Eq))
      [(.text "RC.4", .mapping settings.reverse), (.text "RC.2", .null)] := by
    refine ⟨_, .swap _ _ _, .cons ⟨rfl, .entries ⟨_, .swap _ _ _, ?_⟩⟩ (.cons ⟨rfl, .same _⟩ .nil)⟩
    exact .cons ⟨rfl, .same _⟩ (.cons ⟨rfl, .same _⟩ .nil)
  have hok : (ofValue (some (.mapping raw))).isOk = true := by decide +kernel
  obtain ⟨c, hc⟩ := exists_of_isOk hok
  refine ⟨c, hc, (horder _ hdistinct hreordered c).mp hc, ?_⟩
  have hr : LoadThenStore.rule ∈ rules := by simp [rules]
  exact ((hentries c hc).2 LoadThenStore.rule hr).2 _ rfl

end Catalog

end Hazard
