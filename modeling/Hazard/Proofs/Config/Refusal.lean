import Hazard.Proofs.Config.Thresholds
import Hazard.Proofs.Document.Breakdown
import Hazard.Proofs.Number

set_option autoImplicit false

/-! # Where the reading of a configuration breaks down

Whatever is wrong with a configuration should be refused. There are other ways to fail. A time limit
can be an integer beyond the range of doubles; a pattern can repeat something more often than the
pattern engine counts, or have flags that exclude each other; a number can have too many digits to
be shown in the message that refuses it. None of these is turned into a refusal. And one value is
accepted that should not be: a time limit that is no number is not at most zero either.

`Config.Culprit` names what in a configuration is to blame, and every failure of the reader that is
no refusal is traced to a culprit; `FailsOnly` goes through the steps. -/

namespace Hazard

/-! ## Engines within their bounds -/

namespace EngineSettings

end EngineSettings

/-! ## Culprits -/

theorem occursIn_of_get? {v : Value} {raw : Entries} (h : (Value.mapping raw).OccursIn v)
    {key : String} {w : Value} (hw : raw.get? key = some w) : w.OccursIn v :=
  (Entries.occursIn_of_get? hw).trans h

variable [CharacterNames]

namespace Config

/-- What in a configuration is to blame for a failure that is no refusal. -/
inductive Culprit (v : Value) : ConfigFailure → Prop
  /-- A number has too many digits to be written. -/
  | number (h : v.isWritable = false) : Culprit v (.numeral .unwritable)
  /-- The time limit is an integer beyond the range of doubles. -/
  | timeout {raw : Entries} {n : Int} {o : Overflow} (hin : (Value.mapping raw).OccursIn v)
      (hget : raw.get? "unit_timeout" = some (.int n)) (hpos : 0 < n)
      (hn : Number.floatOfInt n = .error o) : Culprit v (.overflow o)
  /-- A pattern has a number in it that is too large, or flags that exclude each other. -/
  | pattern {entries : Entries} {name p : String} {ps : List Value} {e : PatternError}
      {f : ConfigFailure} (hin : (Value.mapping entries).OccursIn v)
      (hps : (.text name, .list ps) ∈ entries) (hp : .text p ∈ ps)
      (hparse : Pattern.parse p = .error e) (hf : e.failure? = some f) : Culprit v f

/-- A configuration is refused, or has a culprit. -/
def Explains (v : Value) (f : ConfigFailure) : Prop := (∃ e, f = .refused e) ∨ Culprit v f

theorem culprit_of_isWritable_eq_false {v w : Value} (h : w.OccursIn v)
    (hw : w.isWritable = false) : Culprit v (.numeral .unwritable) := by
  refine .number ?_
  by_contra hv
  rw [Value.isWritable_of_occursIn h (by simpa using hv)] at hw
  exact absurd hw (by decide)

end Config

open Config (Explains)

/-! ## Refusals and names -/

namespace Configuring

variable {v : Value}

theorem refuse_failsOnly {α : Type} {e : ConfigError} (h : ∀ w ∈ e.shows, w.OccursIn v) :
    FailsOnly (Explains v) (refuse e : Configuring α) := by
  intro f hf
  obtain rfl := Except.error.inj hf
  split_ifs with hshows
  · exact .inl ⟨e, rfl⟩
  · obtain ⟨w, hw, hwritable⟩ : ∃ w ∈ e.shows, w.isWritable = false := by simpa using hshows
    exact .inr (Config.culprit_of_isWritable_eq_false (h w hw) hwritable)

theorem name_failsOnly {k : Scalar} (h : (Value.scalar k).OccursIn v) :
    FailsOnly (Explains v) (name k) := by
  intro f hf
  unfold name Value.written at hf
  split_ifs at hf with hwritable
  · exact absurd hf (by simp [pure, Except.pure, Except.mapError])
  · obtain rfl := Except.error.inj hf
    exact .inr (Config.culprit_of_isWritable_eq_false h (by simpa using hwritable))

end Configuring

open Configuring (refuse_failsOnly name_failsOnly)

theorem unknownKeys_failsOnly {v : Value} {known : List String} {entries : Entries}
    (h : (Value.mapping entries).OccursIn v) :
    FailsOnly (Explains v) (unknownKeys known entries) := by
  refine .bind (.mapM fun entry hentry => ?_) fun _ _ => .pure _
  have hmem : (entry.1, entry.2) ∈ entries := (List.mem_filter.mp hentry).1
  exact name_failsOnly ((Value.OccursIn.self.key hmem).trans h)

section

variable {v : Value} {raw : Entries} (h : (Value.mapping raw).OccursIn v)

include h

/-- Unknown keys are refused before anything else is read. -/
theorem known_failsOnly {α : Type} {known : List String} {error : List String → ConfigError}
    {rest : Configuring α} (herror : ∀ names, (error names).shows = [])
    (hrest : FailsOnly (Explains v) rest) :
    FailsOnly (Explains v) (do
      let unknown ← unknownKeys known raw
      if !unknown.isEmpty then Configuring.refuse (error unknown)
      rest) := by
  refine (unknownKeys_failsOnly h).bind fun unknown _ => ?_
  split
  · refine .bind (refuse_failsOnly ?_) fun _ _ => hrest
    rw [herror]
    exact List.forall_mem_nil _
  · exact hrest

/-! ## The engine -/

namespace EngineSettings

theorem readWorkers_failsOnly : FailsOnly (Explains v) (readWorkers raw) := by
  unfold readWorkers
  split
  next => exact .pure _
  next n hget =>
    split_ifs
    · exact .pure _
    · exact refuse_failsOnly (List.forall_mem_singleton.mpr (occursIn_of_get? h hget))
  next w _ hget =>
    exact refuse_failsOnly (List.forall_mem_singleton.mpr (occursIn_of_get? h hget))

theorem readTimeout_failsOnly : FailsOnly (Explains v) (readTimeout raw) := by
  unfold readTimeout
  split
  next => exact .pure _
  next => exact .pure _
  next n hget =>
    split_ifs with hn
    · exact refuse_failsOnly (List.forall_mem_singleton.mpr (occursIn_of_get? h hget))
    · refine .bind (fun f hf => ?_) fun _ _ => .pure _
      obtain ⟨o, hfloat, rfl⟩ := (mapError_eq_error_iff _ _ _).mp hf
      exact .inr (.timeout h hget (by omega) hfloat)
  next x hget =>
    split_ifs
    · exact refuse_failsOnly (List.forall_mem_singleton.mpr (occursIn_of_get? h hget))
    · exact .pure _
  next w _ _ _ hget =>
    exact refuse_failsOnly (List.forall_mem_singleton.mpr (occursIn_of_get? h hget))

omit h in
theorem readPartialResults_failsOnly : FailsOnly (Explains v) (readPartialResults raw) := by
  unfold readPartialResults
  split
  next => exact .pure _
  next => exact .pure _
  next => exact refuse_failsOnly (List.forall_mem_nil _)

end EngineSettings

end

theorem EngineSettings.ofValue_failsOnly {v : Value} {said : Option Value}
    (h : ∀ w ∈ said, w.OccursIn v) : FailsOnly (Explains v) (ofValue said) := by
  unfold ofValue
  split
  next => exact .pure _
  next => exact .pure _
  next raw =>
    have hraw : (Value.mapping raw).OccursIn v := h _ rfl
    refine known_failsOnly hraw (fun _ => rfl) ?_
    exact (readWorkers_failsOnly hraw).bind fun _ _ => (readTimeout_failsOnly hraw).bind fun _ _ =>
      readPartialResults_failsOnly.bind fun _ _ => .pure _
  next => exact refuse_failsOnly (List.forall_mem_nil _)

/-! ## The rules -/

namespace ThresholdSpec

variable {v : Value} {name : String}

theorem checkMinimum_failsOnly {n : Int} {minimum : Option Number}
    (h : (Value.int n).OccursIn v) : FailsOnly (Explains v) (checkMinimum name n minimum) := by
  unfold checkMinimum
  split
  next => exact .pure _
  next =>
    split_ifs
    · exact refuse_failsOnly (List.forall_mem_singleton.mpr h)
    · exact .pure _

theorem checkMaximum_failsOnly {n : Int} {maximum : Option Number}
    (h : (Value.int n).OccursIn v) : FailsOnly (Explains v) (checkMaximum name n maximum) := by
  unfold checkMaximum
  split
  next => exact .pure _
  next =>
    split_ifs
    · exact refuse_failsOnly (List.forall_mem_singleton.mpr h)
    · exact .pure _

theorem validateCount_failsOnly {minimum maximum : Option Number} {w : Value}
    (h : w.OccursIn v) : FailsOnly (Explains v) (validateCount name minimum maximum w) := by
  unfold validateCount
  split
  next n =>
    exact (checkMinimum_failsOnly h).bind fun _ _ => (checkMaximum_failsOnly h).bind fun _ _ =>
      .pure _
  next => exact refuse_failsOnly (List.forall_mem_singleton.mpr h)

/-- Of the texts that are no patterns, those are not refused that have a number that is too large or
    flags that exclude each other. -/
theorem validatePatterns_failsOnly {values : List Value} (hin : ∀ w ∈ values, w.OccursIn v)
    (hpattern : ∀ p e f, .text p ∈ values → Pattern.parse p = .error e → e.failure? = some f →
      Config.Culprit v f) :
    FailsOnly (Explains v) (validatePatterns name values) := by
  fun_induction validatePatterns name values with
  | case1 => exact .pure _
  | case2 p rest q hq ih =>
      refine .bind (ih (fun w hw => hin w (List.mem_cons_of_mem _ hw)) ?_) fun _ _ => .pure _
      exact fun p' e f hp' => hpattern p' e f (List.mem_cons_of_mem _ hp')
  | case3 p rest e he failure hfailure =>
      intro f hf
      obtain rfl := Except.error.inj hf
      exact .inr (hpattern p e _ List.mem_cons_self he hfailure)
  | case4 => exact refuse_failsOnly (List.forall_mem_nil _)
  | case5 w rest =>
      exact refuse_failsOnly (List.forall_mem_singleton.mpr (hin w List.mem_cons_self))

theorem validate_failsOnly {spec : ThresholdSpec} {entries : Entries} {key : String} {w : Value}
    (h : (Value.mapping entries).OccursIn v) (hw : (.text key, w) ∈ entries) :
    FailsOnly (Explains v) (spec.validate name w) := by
  have hin : w.OccursIn v := (Value.OccursIn.self.entry hw).trans h
  cases spec with
  | count default minimum maximum => exact (validateCount_failsOnly hin).bind fun _ _ => .pure _
  | patterns default =>
      unfold validate
      dsimp only
      split
      next values =>
        refine .bind (validatePatterns_failsOnly ?_ ?_) fun _ _ => .pure _
        · exact fun w' hw' => (Value.OccursIn.self.item hw').trans hin
        · exact fun p e f hp hparse hf => .pattern h hw hp hparse hf
      next => exact refuse_failsOnly (List.forall_mem_nil _)

end ThresholdSpec

namespace RuleSettings

variable {v : Value} {r : RuleInfo}

theorem readThresholds_failsOnly {entries rest : Entries} {ts : Thresholds}
    (h : (Value.mapping entries).OccursIn v) (hrest : ∀ entry ∈ rest, entry ∈ entries) :
    FailsOnly (Explains v) (readThresholds r ts rest) := by
  induction rest generalizing ts with
  | nil => exact .pure _
  | cons entry rest ih =>
      obtain ⟨key, w⟩ := entry
      have hentry : (key, w) ∈ entries := hrest _ List.mem_cons_self
      have hkey : (Value.scalar key).OccursIn v := (Value.OccursIn.self.key hentry).trans h
      unfold readThresholds
      dsimp only
      split
      next =>
        exact (name_failsOnly hkey).bind fun _ _ => refuse_failsOnly (List.forall_mem_nil _)
      next spec hspec =>
        split at hspec
        next name =>
          refine (ThresholdSpec.validate_failsOnly h hentry).bind fun _ _ => ?_
          exact ih fun entry hmem => hrest entry (List.mem_cons_of_mem _ hmem)
        next => exact absurd hspec (by simp)

section

variable {raw : Entries} (h : (Value.mapping raw).OccursIn v)

include h

theorem readLevel_failsOnly {levels : List String} {key : String} {error : Value → ConfigError}
    (herror : ∀ w, (error w).shows = [w]) :
    FailsOnly (Explains v) (readLevel levels raw key error) := by
  have hrefuse : ∀ w, raw.get? key = some w →
      FailsOnly (Explains v) (Configuring.refuse (error w) : Configuring (Option String)) := by
    intro w hw
    refine refuse_failsOnly ?_
    rw [herror]
    exact List.forall_mem_singleton.mpr (occursIn_of_get? h hw)
  unfold readLevel
  split
  next => exact .pure _
  next => exact .pure _
  next s hget =>
    split_ifs
    · exact .pure _
    · exact hrefuse _ hget
  next w _ _ hget => exact hrefuse w hget

theorem readThresholdField_failsOnly : FailsOnly (Explains v) (readThresholdField r raw) := by
  unfold readThresholdField
  split
  next => exact .pure _
  next w hget =>
    split_ifs
    · exact .pure _
    · split
      next entries =>
        exact readThresholds_failsOnly (occursIn_of_get? h hget) fun _ hmem => hmem
      next => exact refuse_failsOnly (List.forall_mem_nil _)

omit h in
theorem readEnabled_failsOnly : FailsOnly (Explains v) (readEnabled r.id raw) := by
  unfold readEnabled
  split
  next => exact .pure _
  next => exact .pure _
  next => exact refuse_failsOnly (List.forall_mem_nil _)

end

theorem ofValue_failsOnly {said : Option Value} (h : ∀ w ∈ said, w.OccursIn v) :
    FailsOnly (Explains v) (ofValue r said) := by
  unfold ofValue
  split
  next => exact .pure _
  next => exact .pure _
  next => exact .pure _
  next raw =>
    have hraw : (Value.mapping raw).OccursIn v := h _ rfl
    refine known_failsOnly hraw (fun _ => rfl) ?_
    exact readEnabled_failsOnly.bind fun _ _ =>
      (readLevel_failsOnly hraw fun _ => rfl).bind fun _ _ =>
      (readLevel_failsOnly hraw fun _ => rfl).bind fun _ _ =>
      (readThresholdField_failsOnly hraw).bind fun _ _ => .pure _
  next => exact refuse_failsOnly (List.forall_mem_nil _)

end RuleSettings

theorem Catalog.ofValue_failsOnly {v : Value} {said : Option Value}
    (h : ∀ w ∈ said, w.OccursIn v) : FailsOnly (Explains v) (ofValue said) := by
  unfold ofValue
  split
  next => exact .pure _
  next => exact .pure _
  next raw =>
    have hraw : (Value.mapping raw).OccursIn v := h _ rfl
    refine known_failsOnly hraw (fun _ => rfl) ?_
    refine .bind (.mapM fun r _ => ?_) fun _ _ => .pure _
    exact RuleSettings.ofValue_failsOnly fun w hw => occursIn_of_get? hraw hw
  next => exact refuse_failsOnly (List.forall_mem_nil _)

/-! ## Configurations -/

namespace Config

theorem ofValue_failsOnly (v : Value) : FailsOnly (Explains v) (ofValue v) := by
  unfold ofValue
  split
  next => exact .pure _
  next raw =>
    have hin : ∀ key, ∀ w ∈ Entries.get? raw key, w.OccursIn (.mapping raw) :=
      fun key w hw => Entries.occursIn_of_get? hw
    refine known_failsOnly .self (fun _ => rfl) ?_
    exact (Catalog.ofValue_failsOnly (hin "rules")).bind fun _ _ =>
      (EngineSettings.ofValue_failsOnly (hin "engine")).bind fun _ _ => .pure _
  next => exact refuse_failsOnly (List.forall_mem_nil _)

end Config

end Hazard
