import Hazard.Document.Place
import Mathlib.Data.List.TakeWhile

set_option autoImplicit false

/-! # Numerals in locations

A text has the form of a location if numbers stand at its end, or if it looks like a number as a
whole. Having the form is not enough: the digits of a number may be too many to be read, and what
looks like a number may have characters without a value. A text that breaks the reading of a
location has one of these two flaws, which is `Location.Misread`. -/

namespace Hazard

/-- A row of digits that is not read has too many of them, or a character without a value. -/
theorem Text.natural_eq_error {cs : List Char} {e : NumeralError} (hne : cs ≠ [])
    (h : natural cs = .error e) :
    (∃ run, run <+: cs ∧ (∀ c ∈ run, isDecimal c = true) ∧ digitLimit < run.length
        ∧ e = .tooLong run.length)
      ∨ (∃ c ∈ cs, isDecimal c = false) ∧ e = .invalid 10 (String.ofList cs) := by
  rw [natural] at h
  split at h
  next hlong =>
    refine .inl ⟨cs.takeWhile isDecimal, List.takeWhile_prefix _, ?_, hlong, ?_⟩
    · exact fun c hc => List.mem_takeWhile_imp hc
    · exact (Except.error.inj h).symm
  next =>
    split at h
    · exact absurd h (by simp)
    next hcount =>
      refine .inr ⟨?_, (Except.error.inj h).symm⟩
      by_contra hall
      have hdecimal : ∀ c ∈ cs, isDecimal c = true := by simpa using hall
      have htake : cs.takeWhile isDecimal = cs := List.takeWhile_eq_self_iff.mpr hdecimal
      apply hcount
      simp [htake, hne]

namespace Location

/-- Why a text that has the form of a location is not read as one. -/
inductive Misread (s : String) : NumeralError → Prop
  /-- More decimal digits stand in a row than are read. -/
  | long {run : List Char} (hrun : run <:+: Text.strip s.toList)
      (hdecimal : ∀ c ∈ run, Text.isDecimal c = true) (hlong : Text.digitLimit < run.length) :
      Misread s (.tooLong run.length)
  /-- All characters look like digits, and one of them has no value. -/
  | valueless {c : Char} (hdigits : ∀ d ∈ Text.strip s.toList, Text.isDigit d = true)
      (hc : c ∈ Text.strip s.toList) (hvalue : Text.isDecimal c = false) :
      Misread s (.invalid 10 (String.ofList (Text.strip s.toList)))

/-- A row of decimal digits in a location is misread only for its length. -/
theorem misread_of_natural_eq_error {s : String} {digits : List Char} {e : NumeralError}
    (hin : digits <:+: Text.strip s.toList) (hne : digits ≠ [])
    (hdecimal : ∀ c ∈ digits, Text.isDecimal c = true) (h : Text.natural digits = .error e) :
    Misread s e := by
  rcases Text.natural_eq_error hne h with ⟨run, hrun, hall, hlong, rfl⟩ | ⟨⟨c, hc, hvalue⟩, _⟩
  · exact .long (hrun.isInfix.trans hin) hall hlong
  · rw [hdecimal c hc] at hvalue
    exact absurd hvalue (by decide)

/-- The characters are a row of decimal digits. -/
def IsNumeral (cs : List Char) : Prop := cs ≠ [] ∧ ∀ c ∈ cs, Text.isDecimal c = true

/-- What is read as numbers is one row of digits, or two with a colon between them. -/
theorem numbers?_eq_some {cs line : List Char} {column : Option (List Char)}
    (h : numbers? cs = some (line, column)) :
    IsNumeral line ∧ (column = none ∧ cs = line
      ∨ ∃ digits, column = some digits ∧ IsNumeral digits ∧ cs = line ++ ':' :: digits) := by
  have hparts : cs.takeWhile Text.isDecimal ++ cs.dropWhile Text.isDecimal = cs :=
    List.takeWhile_append_dropWhile
  rw [numbers?] at h
  split_ifs at h with hempty
  have hline : IsNumeral (cs.takeWhile Text.isDecimal) :=
    ⟨by simpa using hempty, fun c hc => List.mem_takeWhile_imp hc⟩
  split at h
  next hdrop =>
    obtain ⟨rfl, rfl⟩ := Prod.mk.inj (Option.some.inj h)
    rw [hdrop, List.append_nil] at hparts
    exact ⟨hline, Or.inl ⟨rfl, hparts.symm⟩⟩
  next digits hdrop =>
    split_ifs at h with hdigits
    obtain ⟨rfl, rfl⟩ := Prod.mk.inj (Option.some.inj h)
    rw [Bool.and_eq_true, List.all_eq_true] at hdigits
    rw [hdrop] at hparts
    exact ⟨hline, Or.inr ⟨digits, rfl, ⟨by simpa using hdigits.1, hdigits.2⟩, hparts.symm⟩⟩
  next => exact absurd h (by simp)

/-- The numbers at the end of a location are rows of decimal digits. -/
structure Written.AreDigitsOf (line : List Char) (column : Option (List Char)) (cs : List Char) :
    Prop where
  line : line <:+: cs ∧ line ≠ [] ∧ ∀ c ∈ line, Text.isDecimal c = true
  column : ∀ digits ∈ column,
    digits <:+: cs ∧ digits ≠ [] ∧ ∀ c ∈ digits, Text.isDecimal c = true

theorem areDigitsOf_of_numbers? {cs line : List Char} {column : Option (List Char)}
    (h : numbers? cs = some (line, column)) : Written.AreDigitsOf line column cs := by
  obtain ⟨hline, ⟨rfl, rfl⟩ | ⟨digits, rfl, hdigits, rfl⟩⟩ := numbers?_eq_some h
  · exact ⟨⟨List.infix_rfl, hline⟩, by simp⟩
  · refine ⟨⟨(List.prefix_append _ _).isInfix, hline⟩, ?_⟩
    intro digits' hdigits'
    obtain rfl := Option.some.inj hdigits'
    exact ⟨⟨line ++ [':'], [], by simp⟩, hdigits⟩

theorem areDigitsOf_of_split? {cs file : List Char} {w : Written} (h : split? file cs = some w) :
    Written.AreDigitsOf w.line w.column cs := by
  induction cs generalizing file with
  | nil => simp [split?] at h
  | cons c rest ih =>
      -- A number of the characters after the first is one of all of them.
      have hlater : ∀ {line column}, Written.AreDigitsOf line column rest →
          Written.AreDigitsOf line column (c :: rest) := fun hw =>
        ⟨⟨List.infix_cons hw.line.1, hw.line.2⟩,
          fun digits hd => ⟨List.infix_cons (hw.column digits hd).1, (hw.column digits hd).2⟩⟩
      rw [split?] at h
      split at h
      next line column hnumbers =>
        obtain rfl := Option.some.inj h
        split_ifs at hnumbers
        exact hlater (areDigitsOf_of_numbers? hnumbers)
      next =>
        split_ifs at h
        exact hlater (ih h)

theorem misread_of_ofText_eq_error {unit s : String} {e : NumeralError}
    (h : ofText unit s = .error e) : Misread s e := by
  unfold ofText at h
  simp only at h
  split at h
  next w hsplit =>
    obtain ⟨hline, hcolumn⟩ := areDigitsOf_of_split? hsplit
    cases hl : Text.natural w.line with
    | error e' =>
        obtain rfl : e' = e := by simpa [hl, bind, Except.bind] using h
        exact misread_of_natural_eq_error hline.1 hline.2.1 hline.2.2 hl
    | ok line =>
        simp only [hl, bind, Except.bind] at h
        cases hdigits : w.column with
        | none => simp [hdigits, pure, Except.pure] at h
        | some digits =>
            obtain ⟨hin, hne, hdecimal⟩ := hcolumn digits hdigits
            simp only [hdigits] at h
            cases hc : Text.natural digits with
            | error e' =>
                obtain rfl : e' = e := by simpa [hc] using h
                exact misread_of_natural_eq_error hin hne hdecimal hc
            | ok column => simp [hc, pure, Except.pure] at h
  next =>
    split_ifs at h with hdigits
    · rw [Bool.and_eq_true, List.all_eq_true] at hdigits
      cases hl : Text.natural (Text.strip s.toList) with
      | error e' =>
          obtain rfl : e' = e := by simpa [hl, bind, Except.bind] using h
          rcases Text.natural_eq_error (by simpa using hdigits.1) hl with
            ⟨run, hrun, hdecimal, hlong, rfl⟩ | ⟨⟨c, hc, hvalue⟩, rfl⟩
          · exact .long hrun.isInfix hdecimal hlong
          · exact .valueless hdigits.2 hc hvalue
      | ok line => simp [hl, bind, Except.bind, pure, Except.pure] at h
    · exact absurd h (by simp [pure, Except.pure])

end Location

end Hazard
