import Hazard.Document.Field
import Hazard.Proofs.Document.Place
import Mathlib.Data.List.Basic

set_option autoImplicit false

/-! # Reading back a written location

A location is written without its column when that is zero, and a file may itself end in a colon and
a number. So `a:5` at line 7 is written like `a` at line 5, column 7, and is read as the latter,
since the shortest file is taken. This is the only way in which a written location comes back as
another one (`location_written`): with a column the two numbers at the end leave no choice, and
without one the file would have to supply the first of two numbers.

The argument is about colons. What is read as one or two numbers has at most one colon, so that a
shorter file can be taken only when what is left has no more than that. -/

namespace Hazard

/-! ## Digits -/

namespace Text

theorem toNat_of_isDigit {c : Char} (h : c.isDigit = true) : 48 ≤ c.toNat ∧ c.toNat ≤ 57 :=
  Char.isDigit_iff_toNat.mp h

theorem digitValue?_of_isDigit {c : Char} (h : c.isDigit = true) :
    digitValue? c = some (c.toNat - '0'.toNat) := by
  have hrange : 48 ≤ c.toNat ∧ c.toNat < 48 + 10 := by
    have hc := toNat_of_isDigit h
    omega
  rw [digitValue?, zeroDigits, List.find?_cons_of_pos (by simpa using hrange)]
  rfl

theorem isDecimal_of_isDigit {c : Char} (h : c.isDigit = true) : isDecimal c = true := by
  rw [isDecimal, digitValue?_of_isDigit h]
  rfl

theorem not_isBlank_of_isDigit {c : Char} (h : c.isDigit = true) : isBlank c = false := by
  have hc := toNat_of_isDigit h
  rw [isBlank, CharSet.has, List.any_eq_false]
  intro range hrange
  simp only [blanks, List.mem_cons, List.not_mem_nil, or_false] at hrange
  rcases hrange with rfl | rfl | rfl | rfl | rfl | rfl | rfl | rfl | rfl | rfl <;> simp <;> omega

theorem isDecimal_of_mem_toDigits {n : Nat} {c : Char} (h : c ∈ Nat.toDigits 10 n) :
    isDecimal c = true :=
  isDecimal_of_isDigit (Nat.isDigit_of_mem_toDigits (by decide) (by decide) h)

/-- The digits of a number stand for the number. -/
theorem digitsValue_toDigits (n : Nat) : digitsValue (Nat.toDigits 10 n) = n := by
  have hdigits : ∀ c ∈ Nat.toDigits 10 n, (digitValue? c).getD 0 = c.toNat - '0'.toNat := by
    intro c hc
    rw [digitValue?_of_isDigit (Nat.isDigit_of_mem_toDigits (by decide) (by decide) hc)]
    rfl
  calc digitsValue (Nat.toDigits 10 n)
      = Nat.ofDigitChars 10 (Nat.toDigits 10 n) 0 := by
        refine List.foldl_ext _ _ _ fun sofar c hc => ?_
        rw [hdigits c hc]
    _ = n := Nat.ofDigitChars_toDigits (by decide) (by decide)

theorem natural_eq_ok {cs : List Char} (hne : cs ≠ []) (hall : ∀ c ∈ cs, isDecimal c = true)
    (hlength : cs.length ≤ digitLimit) : natural cs = .ok (digitsValue cs) := by
  have htake : cs.takeWhile isDecimal = cs := List.takeWhile_eq_self_iff.mpr hall
  rw [natural, htake, if_neg (by omega), if_pos (by simp [hne])]

theorem natural_eq_tooLong {cs : List Char} (hall : ∀ c ∈ cs, isDecimal c = true)
    (hlength : digitLimit < cs.length) : natural cs = .error (.tooLong cs.length) := by
  have htake : cs.takeWhile isDecimal = cs := List.takeWhile_eq_self_iff.mpr hall
  rw [natural, htake, if_pos hlength]

theorem natural_toDigits {n : Nat} (h : (Nat.toDigits 10 n).length ≤ digitLimit) :
    natural (Nat.toDigits 10 n) = .ok n := by
  rw [natural_eq_ok Nat.toDigits_ne_nil (fun _ hc => isDecimal_of_mem_toDigits hc) h,
    digitsValue_toDigits]

theorem isWritable_of_length_toDigits {n : Nat} (h : (Nat.toDigits 10 n).length ≤ digitLimit) :
    isWritable n = true := by
  have hlt := (Nat.length_toDigits_le_iff (by decide) (by decide)).mp h
  simp only [isWritable, Int.natAbs_natCast, Nat.pow_eq, hlt, decide_true, Bool.or_true]

theorem strip_eq_self {cs : List Char} (hfront : ∀ c ∈ cs.head?, isBlank c = false)
    (hback : ∀ c ∈ cs.getLast?, isBlank c = false) : strip cs = cs := by
  have hdrop : ∀ {l : List Char}, (∀ c ∈ l.head?, isBlank c = false) →
      l.dropWhile isBlank = l := by
    intro l hl
    cases l with
    | nil => rfl
    | cons c l => exact List.dropWhile_cons_of_neg (by simp [hl c rfl])
  rw [strip, trim, hdrop hfront, hdrop (by simpa using hback), List.reverse_reverse]

end Text

namespace Location

/-! ## Numbers at the end -/

theorem isDecimal_colon : Text.isDecimal ':' = false := by decide

theorem colon_not_mem {cs : List Char} (h : ∀ c ∈ cs, Text.isDecimal c = true) : ':' ∉ cs := by
  intro hcolon
  exact Bool.false_ne_true (isDecimal_colon.symm.trans (h ':' hcolon))

theorem isNumeral_toDigits (n : Nat) : IsNumeral (Nat.toDigits 10 n) :=
  ⟨Nat.toDigits_ne_nil, fun _ hc => Text.isDecimal_of_mem_toDigits hc⟩

/-- One row of digits is a line. -/
theorem numbers?_line {line : List Char} (h : IsNumeral line) :
    numbers? line = some (line, none) := by
  have htake : line.takeWhile Text.isDecimal = line := List.takeWhile_eq_self_iff.mpr h.2
  have hdrop : line.dropWhile Text.isDecimal = [] := List.dropWhile_eq_nil_iff.mpr h.2
  rw [numbers?, htake, hdrop, if_neg (by simpa using h.1)]

/-- Two rows of digits are a line and a column. -/
theorem numbers?_column {line column : List Char} (hline : IsNumeral line)
    (hcolumn : IsNumeral column) :
    numbers? (line ++ ':' :: column) = some (line, some column) := by
  have htake : (line ++ ':' :: column).takeWhile Text.isDecimal = line := by
    rw [List.takeWhile_append_of_pos hline.2, List.takeWhile_cons_of_neg (by decide),
      List.append_nil]
  have hdrop : (line ++ ':' :: column).dropWhile Text.isDecimal = ':' :: column := by
    rw [List.dropWhile_append_of_pos hline.2, List.dropWhile_cons_of_neg (by decide)]
  have hdigits : (!column.isEmpty && column.all Text.isDecimal) = true := by
    rw [Bool.and_eq_true, List.all_eq_true]
    exact ⟨by simpa using hcolumn.1, hcolumn.2⟩
  rw [numbers?, htake, hdrop, if_neg (by simpa using hline.1)]
  exact if_pos hdigits

theorem count_colon_of_isNumeral {cs : List Char} (h : IsNumeral cs) : cs.count ':' = 0 :=
  List.count_eq_zero.mpr (colon_not_mem h.2)

/-- Numbers have one colon at most. -/
theorem numbers?_eq_none {cs : List Char} (h : 2 ≤ cs.count ':') : numbers? cs = none := by
  rw [Option.eq_none_iff_forall_ne_some]
  rintro ⟨line, column⟩ hnumbers
  obtain ⟨hline, ⟨_, rfl⟩ | ⟨digits, _, hdigits, rfl⟩⟩ := numbers?_eq_some hnumbers
  · rw [count_colon_of_isNumeral hline] at h
    omega
  · rw [List.count_append, List.count_cons_self, count_colon_of_isNumeral hline,
      count_colon_of_isNumeral hdigits] at h
    omega

/-- Where there is a colon in numbers, digits stand before it. -/
theorem isNumeral_of_numbers?_ne_none {front rest : List Char}
    (h : numbers? (front ++ ':' :: rest) ≠ none) : IsNumeral front := by
  obtain ⟨⟨line, column⟩, hnumbers⟩ := Option.ne_none_iff_exists'.mp h
  obtain ⟨hline, ⟨_, hcs⟩ | ⟨column, _, hcolumn, hcs⟩⟩ := numbers?_eq_some hnumbers
  · exact absurd (hcs ▸ by simp) (colon_not_mem hline.2)
  · obtain ⟨rfl, _⟩ := (List.append_cons_inj_of_notMem (colon_not_mem hline.2)
      (colon_not_mem hcolumn.2)).mp hcs.symm
    exact hline

/-! ## The file -/

/-- The file that is found ends at the first colon that is followed by numbers. -/
theorem split?_eq_some {front line : List Char} {column : Option (List Char)} {rest : List Char}
    (hrest : numbers? rest = some (line, column)) (file : List Char) (hne : file ++ front ≠ [])
    (hbreak : '\n' ∉ front)
    (hfirst : ∀ before after, front = before ++ ':' :: after → file ++ before ≠ [] →
      numbers? (after ++ ':' :: rest) = none) :
    split? file (front ++ ':' :: rest) = some ⟨file.reverse ++ front, line, column⟩ := by
  induction front generalizing file with
  | nil =>
      have hfile : file ≠ [] := by simpa using hne
      rw [List.nil_append, split?, if_pos (by simpa using hfile), hrest, List.append_nil]
  | cons c front ih =>
      rw [List.mem_cons, not_or] at hbreak
      obtain ⟨hc, hbreak⟩ := hbreak
      have hnone : (if c == ':' && !file.isEmpty then numbers? (front ++ ':' :: rest) else none)
          = none := by
        split_ifs with hcolon
        · simp only [Bool.and_eq_true, beq_iff_eq, Bool.not_eq_true', List.isEmpty_eq_false_iff]
            at hcolon
          obtain ⟨rfl, hfile⟩ := hcolon
          exact hfirst [] front rfl (by simpa using hfile)
        · rfl
      rw [List.cons_append, split?, hnone]
      dsimp only
      rw [if_neg (by simpa using Ne.symm hc), ih (c :: file) (by simp) hbreak]
      · simp
      · intro before after hfront _
        refine hfirst (c :: before) after (by rw [hfront, List.cons_append]) (by simp)

theorem ofText_eq {unit s : String} {w : Written}
    (hfront : ∀ c ∈ s.toList.head?, Text.isBlank c = false)
    (hback : ∀ c ∈ s.toList.getLast?, Text.isBlank c = false)
    (hsplit : split? [] s.toList = some w) :
    ofText unit s = (do
      let line ← Text.natural w.line
      let column ←
        match w.column with
        | some digits => Text.natural digits
        | none => pure 0
      return some ⟨String.ofList w.file, line, column⟩) := by
  unfold ofText
  rw [Text.strip_eq_self hfront hback]
  dsimp only
  generalize split? [] s.toList = found at hsplit ⊢
  subst hsplit
  rfl

theorem not_isBlank_head? {front rest : List Char} {s : String} (hne : front ≠ [])
    (hblank : ∀ c ∈ front.head?, Text.isBlank c = false) (hs : s.toList = front ++ rest) :
    ∀ c ∈ s.toList.head?, Text.isBlank c = false := by
  rw [hs, List.head?_append_of_ne_nil _ hne]
  exact hblank

theorem not_isBlank_getLast? (front : List Char) (n : Nat) :
    ∀ c ∈ (front ++ ':' :: Nat.toDigits 10 n).getLast?, Text.isBlank c = false := by
  intro c hc
  have hlast : c ∈ Nat.toDigits 10 n := by
    rw [List.getLast?_append_of_ne_nil _ (List.cons_ne_nil _ _),
      List.getLast?_cons_of_ne_nil Nat.toDigits_ne_nil] at hc
    exact List.mem_of_getLast? hc
  exact Text.not_isBlank_of_isDigit (Nat.isDigit_of_mem_toDigits (by decide) (by decide) hlast)

section Read

variable {front : List Char} (hne : front ≠ []) (hbreak : '\n' ∉ front)
  (hblank : ∀ c ∈ front.head?, Text.isBlank c = false)

include hne hbreak hblank

/-- A file and a line are read back, unless the file has a number at its end. -/
theorem ofText_line (unit : String) {s : String} {n : Nat}
    (hs : s.toList = front ++ ':' :: Nat.toDigits 10 n)
    (hlength : (Nat.toDigits 10 n).length ≤ Text.digitLimit)
    (hplain : ∀ before after, front = before ++ ':' :: after → before ≠ [] → ¬IsNumeral after) :
    ofText unit s = .ok (some ⟨String.ofList front, n, 0⟩) := by
  have hsplit : split? [] s.toList = some ⟨front, Nat.toDigits 10 n, none⟩ := by
    rw [hs]
    refine split?_eq_some (numbers?_line (isNumeral_toDigits n)) [] hne hbreak ?_
    intro before after hfront hbefore
    by_contra hnumbers
    exact hplain before after hfront hbefore (isNumeral_of_numbers?_ne_none hnumbers)
  have hlast : ∀ c ∈ s.toList.getLast?, Text.isBlank c = false := hs ▸ not_isBlank_getLast? front n
  rw [ofText_eq (not_isBlank_head? hne hblank hs) hlast hsplit, Text.natural_toDigits hlength]
  rfl

/-- A file, a line and a column are read back as such, if the line is read. -/
theorem ofText_column (unit : String) {s : String} {digits : List Char} {k : Nat}
    (hs : s.toList = front ++ ':' :: (digits ++ ':' :: Nat.toDigits 10 k))
    (hdigits : IsNumeral digits) (hlength : (Nat.toDigits 10 k).length ≤ Text.digitLimit) :
    ofText unit s = (do
      let line ← Text.natural digits
      return some ⟨String.ofList front, line, k⟩) := by
  have hsplit : split? [] s.toList = some ⟨front, digits, some (Nat.toDigits 10 k)⟩ := by
    rw [hs]
    refine split?_eq_some (numbers?_column hdigits (isNumeral_toDigits k)) [] hne hbreak ?_
    -- With a shorter file more than one colon would be left.
    intro before after _ _
    refine numbers?_eq_none ?_
    simp only [List.count_append, List.count_cons_self]
    omega
  have hlast : ∀ c ∈ s.toList.getLast?, Text.isBlank c = false := by
    have h := not_isBlank_getLast? (front ++ ':' :: digits) k
    rw [hs]
    simpa using h
  rw [ofText_eq (not_isBlank_head? hne hblank hs) hlast hsplit]
  dsimp only
  rw [Text.natural_toDigits hlength]
  rfl

end Read

/-! ## Round trip -/

/-- The location can be written, and its file is not empty, has no line break and does not begin
    with a blank. -/
structure Plain (loc : Location) : Prop where
  file : loc.file ≠ ""
  oneLine : '\n' ∉ loc.file.toList
  front : ∀ c ∈ loc.file.toList.head?, Text.isBlank c = false
  line : 0 ≤ loc.line ∧ (Nat.toDigits 10 loc.line.toNat).length ≤ Text.digitLimit
  column : 0 ≤ loc.column ∧ (Nat.toDigits 10 loc.column.toNat).length ≤ Text.digitLimit

/-- The file is another one with a colon and a row of decimal digits at its end. -/
structure EndsInNumber (file front digits : String) : Prop where
  parts : file = front ++ ":" ++ digits
  front : front ≠ ""
  digits : digits ≠ "" ∧ ∀ c ∈ digits.toList, Text.isDecimal c = true

theorem EndsInNumber.toList_eq {file front digits : String} (h : EndsInNumber file front digits) :
    file.toList = front.toList ++ ':' :: digits.toList := by
  rw [h.parts, String.toList_append, String.toList_append]
  simp

theorem EndsInNumber.ne {loc : Location} {front digits : String}
    (h : EndsInNumber loc.file front digits) (line column : Int) : ⟨front, line, column⟩ ≠ loc := by
  intro heq
  have hfile : loc.file = front := (congrArg Location.file heq).symm
  have hlength := congrArg List.length h.toList_eq
  rw [hfile, List.length_append, List.length_cons] at hlength
  omega

theorem exists_endsInNumber_iff (file : String) :
    (∃ front digits, EndsInNumber file front digits) ↔
      ∃ before after, file.toList = before ++ ':' :: after ∧ before ≠ [] ∧ IsNumeral after := by
  constructor
  · rintro ⟨front, digits, h⟩
    exact ⟨_, _, h.toList_eq, by simpa using h.front, by simpa using h.digits.1, h.digits.2⟩
  · rintro ⟨before, after, hfile, hbefore, hafter⟩
    refine ⟨String.ofList before, String.ofList after, ?_, by simpa using hbefore, ?_⟩
    · rw [← String.toList_inj, hfile]
      simp
    · exact ⟨by simpa using hafter.1, by simpa using hafter.2⟩

theorem toList_toString_natCast (n : Nat) : (toString (n : Int)).toList = Nat.toDigits 10 n :=
  Nat.toList_repr

theorem toList_text_line (file : String) (n : Nat) :
    (text ⟨file, n, 0⟩).toList = file.toList ++ ':' :: Nat.toDigits 10 n := by
  rw [← toList_toString_natCast]
  simp [text, toString]

theorem toList_text_column (file : String) (n : Nat) {k : Nat} (hk : k ≠ 0) :
    (text ⟨file, n, k⟩).toList
      = file.toList ++ ':' :: (Nat.toDigits 10 n ++ ':' :: Nat.toDigits 10 k) := by
  rw [← toList_toString_natCast, ← toList_toString_natCast]
  simp [text, toString, hk]

theorem Plain.written {loc : Location} (h : loc.Plain) : loc.written = .ok loc.text := by
  have hwritable : ∀ {n : Int}, 0 ≤ n → (Nat.toDigits 10 n.toNat).length ≤ Text.digitLimit →
      Text.isWritable n = true := by
    intro n hn hlength
    rw [← Int.toNat_of_nonneg hn]
    exact Text.isWritable_of_length_toDigits hlength
  rw [Location.written, hwritable h.line.1 h.line.2, hwritable h.column.1 h.column.2]
  rfl

/-- A plain location with a column, or with a file that does not end in a number, is read back. -/
theorem Plain.ofText_text {loc : Location} (h : loc.Plain)
    (hclear : loc.column ≠ 0 ∨ ¬∃ front digits, EndsInNumber loc.file front digits)
    (unit : String) : ofText unit loc.text = .ok (some loc) := by
  obtain ⟨file, line, column⟩ := loc
  obtain ⟨hfile, honeLine, hfront, ⟨hn, hline⟩, hk, hcolumn⟩ := h
  obtain ⟨n, rfl⟩ := Int.eq_ofNat_of_zero_le hn
  obtain ⟨k, rfl⟩ := Int.eq_ofNat_of_zero_le hk
  have hne : file.toList ≠ [] := by simpa using hfile
  by_cases hzero : k = 0
  · subst hzero
    have hplain : ¬∃ front digits, EndsInNumber file front digits := by simpa using hclear
    rw [exists_endsInNumber_iff] at hplain
    have hread := ofText_line hne honeLine hfront unit (toList_text_line file n) hline
      fun before after hparts hbefore hafter => hplain ⟨before, after, hparts, hbefore, hafter⟩
    simpa using hread
  · have hread := ofText_column hne honeLine hfront unit (toList_text_column file n hzero)
      (isNumeral_toDigits n) hcolumn
    rw [Text.natural_toDigits (n := n) hline] at hread
    simpa using hread

/-- Without a column, the number at the end of the file is read as the line. -/
theorem Plain.ofText_text_of_endsInNumber {loc : Location} (h : loc.Plain)
    (hcolumn : loc.column = 0) {front digits : String}
    (hends : EndsInNumber loc.file front digits) (unit : String) :
    ofText unit loc.text = (do
      let line ← Text.natural digits.toList
      return some ⟨front, line, loc.line⟩) := by
  obtain ⟨file, line, column⟩ := loc
  obtain ⟨_, honeLine, hfront, ⟨hn, hline⟩, _⟩ := h
  obtain ⟨n, rfl⟩ := Int.eq_ofNat_of_zero_le hn
  obtain rfl : column = 0 := hcolumn
  have hparts : file.toList = front.toList ++ ':' :: digits.toList := hends.toList_eq
  have hne : front.toList ≠ [] := by simpa using hends.front
  dsimp only at honeLine hfront
  rw [hparts] at honeLine hfront
  rw [List.head?_append_of_ne_nil _ hne] at hfront
  have hs : (text ⟨file, n, 0⟩).toList
      = front.toList ++ ':' :: (digits.toList ++ ':' :: Nat.toDigits 10 n) := by
    rw [toList_text_line, hparts]
    simp
  have hread := ofText_column hne (fun hmem => honeLine (List.mem_append_left _ hmem)) hfront
    unit hs ⟨by simpa using hends.digits.1, hends.digits.2⟩ hline
  simpa using hread

end Location

namespace Field

theorem location_text (unit s : String) :
    location unit [(.text "location", .text s)] =
      match Location.ofText unit s with
      | .error e => .error (.numeral e)
      | .ok (some loc) => return some loc
      | .ok none => Reading.refuse (.badLocation (.text s)) := rfl

theorem location_text_of_le {loc : Location} (h : loc.Plain) (hcolumn : loc.column = 0)
    {front digits : String} (hends : Location.EndsInNumber loc.file front digits)
    (hlength : digits.length ≤ Text.digitLimit) (unit : String) :
    location unit [(.text "location", .text loc.text)]
      = .ok (some ⟨front, Text.digitsValue digits.toList, loc.line⟩) := by
  have hnatural := Text.natural_eq_ok (by simpa using hends.digits.1) hends.digits.2
    (by rwa [String.length_toList])
  rw [location_text, h.ofText_text_of_endsInNumber hcolumn hends unit, hnatural]
  rfl

theorem location_text_of_lt {loc : Location} (h : loc.Plain) (hcolumn : loc.column = 0)
    {front digits : String} (hends : Location.EndsInNumber loc.file front digits)
    (hlength : Text.digitLimit < digits.length) (unit : String) :
    location unit [(.text "location", .text loc.text)]
      = .error (.numeral (.tooLong digits.length)) := by
  have hnatural := Text.natural_eq_tooLong hends.digits.2
    (by rwa [String.length_toList])
  rw [location_text, h.ofText_text_of_endsInNumber hcolumn hends unit, hnatural,
    String.length_toList]
  rfl

open Location in
/-- **Written locations are read back, with one exception.** The text of a plain location is read as
    the location itself just when it has a column or its file does not end in a number. Otherwise
    that number is read as the line and the line as the column, which is another location, or
    refused if it has too many digits. -/
theorem location_written {loc : Location} (h : loc.Plain) (unit : String) :
    ∃ s, loc.written = .ok s
    ∧ (location unit [(.text "location", .text s)] = .ok (some loc) ↔
      loc.column ≠ 0 ∨ ¬∃ front digits, EndsInNumber loc.file front digits)
    ∧ ∀ front digits, loc.column = 0 → EndsInNumber loc.file front digits →
      (⟨front, Text.digitsValue digits.toList, loc.line⟩ : Location) ≠ loc
      ∧ (digits.length ≤ Text.digitLimit → location unit [(.text "location", .text s)]
        = .ok (some ⟨front, Text.digitsValue digits.toList, loc.line⟩))
      ∧ (Text.digitLimit < digits.length → location unit [(.text "location", .text s)]
        = .error (.numeral (.tooLong digits.length))) := by
  refine ⟨loc.text, h.written, ⟨?_, ?_⟩, ?_⟩
  · intro hread
    by_contra hambiguous
    rw [not_or, not_not, not_not] at hambiguous
    obtain ⟨hcolumn, front, digits, hends⟩ := hambiguous
    rcases Nat.lt_or_ge Text.digitLimit digits.length with hlong | hshort
    · rw [location_text_of_lt h hcolumn hends hlong] at hread
      cases hread
    · rw [location_text_of_le h hcolumn hends hshort] at hread
      exact hends.ne _ _ (Option.some.inj (Except.ok.inj hread))
  · intro hclear
    rw [location_text, h.ofText_text hclear unit]
    rfl
  · intro front digits hcolumn hends
    exact ⟨hends.ne _ _, fun hshort => location_text_of_le h hcolumn hends hshort unit,
      fun hlong => location_text_of_lt h hcolumn hends hlong unit⟩

/-- A line of a file whose name has colons and numbers, with a column and without one. The one with
    a column is read back; the other one is read as a column of a line. -/
theorem location_written_numbered :
    location "u" [(.text "location", .text "C:a:5:7:2")] = .ok (some ⟨"C:a:5", 7, 2⟩) ∧
    location "u" [(.text "location", .text "C:a:5:7")] = .ok (some ⟨"C:a", 5, 7⟩) := by
  have hdigits : ∀ c ∈ "5".toList, Text.isDecimal c = true := by
    intro c hc
    obtain rfl : c = '5' := by simpa using hc
    rfl
  have hfront : ∀ c ∈ "C:a:5".toList.head?, Text.isBlank c = false := by
    intro c hc
    obtain rfl : 'C' = c := Option.some.inj hc
    rfl
  have hfile : Location.EndsInNumber "C:a:5" "C:a" "5" :=
    ⟨by decide, by decide, by decide, hdigits⟩
  have hline : (⟨"C:a:5", 7, 0⟩ : Location).Plain :=
    ⟨by decide, by decide, hfront, by decide, by decide⟩
  have hcolumn : (⟨"C:a:5", 7, 2⟩ : Location).Plain :=
    ⟨by decide, by decide, hfront, by decide, by decide⟩
  constructor
  · obtain ⟨s, hs, hread, _⟩ := location_written hcolumn "u"
    obtain rfl : "C:a:5:7:2" = s := Except.ok.inj hs
    exact hread.mpr (Or.inl (by decide))
  · obtain ⟨s, hs, _, hother⟩ := location_written hline "u"
    obtain rfl : "C:a:5:7" = s := Except.ok.inj hs
    exact (hother "C:a" "5" rfl hfile).2.1 (by decide)

end Field

end Hazard
