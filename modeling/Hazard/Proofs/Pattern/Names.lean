import Hazard.Pattern.Parser
import Hazard.Proofs.Except

set_option autoImplicit false

/-! # Patterns and the names of characters

A pattern is read with the names of characters that are known, but few patterns ask for one. Where a
pattern can be read, every name that it asks for is known, and knowing more names makes no
difference. So the patterns that ask for no name at all can be read whatever the names are, and a
reading with no names settles it.

The reader is a chain of steps, and only the step that looks up a name depends on the names.
`Keeps` compares two readings and goes through the chain; sets and groups are done by induction on
the fuel. -/

namespace Hazard

/-- Every name in `few` is a name in `more`, of the same character. -/
def CharacterNames.Within (few more : CharacterNames) : Prop :=
  ∀ name c, @named? few name = some c → @named? more name = some c

theorem CharacterNames.nameless_within (more : CharacterNames) : nameless.Within more := nofun

namespace PatternReader

variable {α β : Type}

/-- Wherever `r` gets a result, so does `r'`, and the same one. -/
def Keeps (r r' : Reader α) : Prop := ∀ s x, r.run s = .ok x → r'.run s = .ok x

namespace Keeps

theorem refl (r : Reader α) : Keeps r r := fun _ _ h => h

theorem bind {r r' : Reader α} {f f' : α → Reader β} (h : Keeps r r')
    (hf : ∀ a, Keeps (f a) (f' a)) : Keeps (r >>= f) (r' >>= f') := by
  intro s y hy
  obtain ⟨x, hx, hy⟩ := (bind_eq_ok_iff _ _ _).mp hy
  exact (bind_eq_ok_iff _ _ _).mpr ⟨x, h s x hx, hf x.1 x.2 y hy⟩

/-- A step that is the same in both. -/
theorem next {r : Reader α} {f f' : α → Reader β} (hf : ∀ a, Keeps (f a) (f' a)) :
    Keeps (r >>= f) (r >>= f') :=
  (refl r).bind hf

/-- One of two steps that are the same in both. -/
theorem chosen {b : Prop} [Decidable b] {r₁ r₂ : Reader α} {f f' : α → Reader β}
    (hf : ∀ a, Keeps (f a) (f' a)) :
    Keeps (if b then r₁ >>= f else r₂ >>= f) (if b then r₁ >>= f' else r₂ >>= f') := by
  split_ifs
  · exact .next hf
  · exact .next hf

theorem result {r r' : Reader α} (h : Keeps r r') {s : State} {a : α}
    (ha : (r.run s).map (·.1) = .ok a) : (r'.run s).map (·.1) = .ok a := by
  cases hr : r.run s with
  | error e => exact absurd ha (by simp [hr, Except.map])
  | ok x =>
      rw [hr] at ha
      rwa [h s x hr]

end Keeps

theorem refuse_ne_ok (m : PatternMistake) (back : Nat) (s : State) (x : α × State) :
    (refuse m back).run s ≠ .ok x := by
  intro hx
  obtain ⟨position, _, hx⟩ := (bind_eq_ok_iff _ _ _).mp hx
  exact absurd hx (throw_ne_ok _ _)

/-! ## Escapes and sets -/

section

variable {few more : CharacterNames} (h : few.Within more)

include h

theorem characterNamed_keeps (name : List Char) :
    Keeps (@characterNamed few name) (@characterNamed more name) := by
  unfold characterNamed
  split
  · exact .refl _
  · split
    next c hc =>
      rw [h _ _ hc]
      exact .refl _
    next => exact fun s x hx => absurd hx (refuse_ne_ok _ _ s x)

theorem namedEscape_keeps : Keeps (@namedEscape few) (@namedEscape more) := by
  refine .next fun brace => ?_
  dsimp only
  split_ifs
  · exact .next fun _ => .next (characterNamed_keeps h)
  · exact .next (characterNamed_keeps h)

theorem charEscape_keeps (c : Char) : Keeps (@charEscape few c) (@charEscape more c) := by
  unfold charEscape
  split
  · exact .refl _
  · split
    · exact .refl _
    · exact .refl _
    · exact .refl _
    · exact namedEscape_keeps h
    · exact .refl _

theorem escape_keeps (flags : Flags) (c : Char) :
    Keeps (@escape few flags c) (@escape more flags c) := by
  unfold escape
  split
  · exact .refl _
  · split
    · exact .refl _
    · exact .refl _
    · exact .refl _
    · exact .refl _
    · exact .refl _
    · split_ifs
      · exact .refl _
      · exact (charEscape_keeps h c).bind fun _ => .refl _

theorem setEscape_keeps (flags : Flags) (c : Char) :
    Keeps (@setEscape few flags c) (@setEscape more flags c) := by
  unfold setEscape
  split
  · exact .refl _
  · split_ifs
    · exact .refl _
    · exact .refl _
    · exact (charEscape_keeps h c).bind fun _ => .refl _

theorem setMember_keeps (flags : Flags) (t : List Char) :
    Keeps (@setMember few flags t) (@setMember more flags t) := by
  unfold setMember
  split
  · exact setEscape_keeps h flags _
  · exact .refl _
  · exact .refl _

theorem setItems_keeps (flags : Flags) (start : Nat) (items : List SetItem) (fuel : Nat) :
    Keeps (@setItems few flags start items fuel) (@setItems more flags start items fuel) := by
  induction fuel generalizing items with
  | zero => exact .refl _
  | succ fuel ih =>
      unfold setItems
      refine .next fun t => ?_
      split
      · exact .refl _
      next this =>
        dsimp only
        split_ifs
        · exact .refl _
        · refine (setMember_keeps h flags this).bind fun low => .next fun dash => ?_
          split_ifs
          · refine .next fun t => ?_
            split
            · exact .refl _
            next that =>
              split_ifs
              · exact .refl _
              · refine (setMember_keeps h flags that).bind fun high => ?_
                split
                · split_ifs
                  · exact .next fun _ => ih _
                  · exact ih _
                · exact .refl _
          · exact ih _

theorem charSet_keeps (flags : Flags) (start : Nat) :
    Keeps (@charSet few flags start) (@charSet more flags start) := by
  refine .next fun negated => .next fun s => ?_
  exact (setItems_keeps h flags start [] _).bind fun items => .refl _

end

/-! ## Sequences and alternatives -/

/-- The parts of a pattern are read with more names as with few, as far as the fuel lasts. -/
structure KeepsParts (few more : CharacterNames) (fuel : Nat) : Prop where
  alternatives : ∀ top flags,
    Keeps (@alternatives few top flags fuel) (@alternatives more top flags fuel)
  laterAlternatives : ∀ top flags,
    Keeps (@laterAlternatives few top flags fuel) (@laterAlternatives more top flags fuel)
  otherwise : ∀ flags, Keeps (@otherwise few flags fuel) (@otherwise more flags fuel)
  pieces : ∀ top flagsAllowed flags before,
    Keeps (@pieces few top flagsAllowed flags before fuel)
      (@pieces more top flagsAllowed flags before fuel)

namespace KeepsParts

variable {few more : CharacterNames} {fuel : Nat}

theorem zero : KeepsParts few more 0 where
  alternatives _ _ := .refl _
  laterAlternatives _ _ := .refl _
  otherwise _ := .refl _
  pieces _ _ _ _ := .refl _

section

variable (ih : KeepsParts few more fuel)

include ih

theorem alternatives_succ (top : Bool) (flags : Flags) :
    Keeps (@PatternReader.alternatives few top flags (fuel + 1))
      (@PatternReader.alternatives more top flags (fuel + 1)) := by
  unfold PatternReader.alternatives
  refine (ih.pieces top top flags []).bind fun first => .next fun bar => ?_
  dsimp only
  split_ifs
  · exact .next fun s => (ih.laterAlternatives _ _).bind fun later => .refl _
  · exact .next fun s => (ih.laterAlternatives _ _).bind fun later => .refl _
  · exact .refl _

theorem laterAlternatives_succ (top : Bool) (flags : Flags) :
    Keeps (@PatternReader.laterAlternatives few top flags (fuel + 1))
      (@PatternReader.laterAlternatives more top flags (fuel + 1)) := by
  unfold PatternReader.laterAlternatives
  refine (ih.pieces top false flags []).bind fun first => .next fun bar => ?_
  split_ifs
  · exact (ih.laterAlternatives top flags).bind fun later => .refl _
  · exact .refl _

theorem otherwise_succ (flags : Flags) :
    Keeps (@PatternReader.otherwise few flags (fuel + 1))
      (@PatternReader.otherwise more flags (fuel + 1)) := by
  unfold PatternReader.otherwise
  refine .next fun bar => ?_
  split_ifs
  · exact (ih.pieces false false flags []).bind fun no => .refl _
  · exact .refl _

/-- Each token is dealt with in the same way, and what comes after it has less fuel. -/
theorem pieces_succ (h : few.Within more) (top flagsAllowed : Bool) (flags : Flags)
    (before : List Piece) :
    Keeps (@PatternReader.pieces few top flagsAllowed flags before (fuel + 1))
      (@PatternReader.pieces more top flagsAllowed flags before (fuel + 1)) := by
  have hrest := ih.pieces top flagsAllowed
  unfold PatternReader.pieces
  refine .next fun t => ?_
  split
  · exact .refl _
  next t =>
    by_cases hend : (t == ['|'] || t == [')']) = true
    · rw [if_pos hend, if_pos hend]
      exact .refl _
    rw [if_neg hend, if_neg hend]
    refine .next fun start => .next fun _ => ?_
    by_cases hspace : (flags.spaced && isSpace t) = true
    · rw [if_pos hspace, if_pos hspace]
      exact hrest _ _
    rw [if_neg hspace, if_neg hspace]
    by_cases hcomment : (flags.spaced && t == ['#']) = true
    · rw [if_pos hcomment, if_pos hcomment]
      exact .next fun _ => .next fun _ => hrest _ _
    rw [if_neg hcomment, if_neg hcomment]
    dsimp only
    -- One case for each role of a token.
    split
    next c _ =>
      refine (escape_keeps h flags c).bind fun p => ?_
      split
      · exact hrest _ _
      · exact hrest _ _
    next => exact (charSet_keeps h flags start).bind fun _ => hrest _ _
    next => exact hrest _ _
    next => exact hrest _ _
    next => exact hrest _ _
    next => exact .next fun _ => hrest _ _
    next =>
      refine .next fun repetition => ?_
      split
      · exact .next fun _ => hrest _ _
      · exact hrest _ _
    next =>
      refine .next fun question => .chosen fun kind => ?_
      -- And one for each kind of group.
      split
      next => exact hrest _ _
      next => exact hrest _ _
      next =>
        split_ifs
        · exact .next fun _ => .next fun _ => hrest _ _
        · exact .next fun _ => hrest _ _
      next =>
        refine .next fun number => (ih.alternatives _ _).bind fun body => ?_
        exact .next fun _ => .next fun widths => .next fun _ => hrest _ _
      next => exact (ih.alternatives _ _).bind fun body => .next fun _ => hrest _ _
      next => exact (ih.alternatives _ _).bind fun body => .next fun _ => hrest _ _
      next => exact (ih.alternatives _ _).bind fun body => .next fun _ => hrest _ _
      next => exact (ih.alternatives _ _).bind fun body => .next fun _ => hrest _ _
      next =>
        refine .next fun s => .next fun _ => (ih.alternatives _ _).bind fun body => ?_
        exact .next fun _ => .next fun _ => .next fun widths => hrest _ _
      next =>
        refine (ih.pieces _ _ _ _).bind fun yes => (ih.otherwise _).bind fun no => ?_
        exact .next fun _ => hrest _ _
    next => exact hrest _ _
    next => exact hrest _ _

end

end KeepsParts

variable {few more : CharacterNames} (h : few.Within more)

include h

theorem keepsParts (fuel : Nat) : KeepsParts few more fuel := by
  induction fuel with
  | zero => exact .zero
  | succ fuel ih =>
      exact {
        alternatives := ih.alternatives_succ
        laterAlternatives := ih.laterAlternatives_succ
        otherwise := ih.otherwise_succ
        pieces := ih.pieces_succ h }

theorem whole_keeps : Keeps (@whole few) (@whole more) := by
  unfold whole
  refine .next fun s => ?_
  dsimp only
  split_ifs
  · exact .next fun _ => ((keepsParts h _).alternatives _ _).bind fun p => .refl _
  · exact ((keepsParts h _).alternatives _ _).bind fun p => .refl _

end PatternReader

/-- **What can be read with few names can be read with more, and comes out the same.** -/
theorem Pattern.parse_of_within {few more : CharacterNames} (h : few.Within more) {s : String}
    {p : Pattern} (hp : @Pattern.parse few s = .ok p) : @Pattern.parse more s = .ok p :=
  (PatternReader.whole_keeps h).result hp

/-- A pattern that can be read without any names can be read whatever the names are. -/
theorem Pattern.exists_of_isOk_nameless [names : CharacterNames] {s : String}
    (h : (@Pattern.parse .nameless s).isOk = true) : ∃ p, Pattern.parse s = .ok p := by
  obtain ⟨p, hp⟩ := exists_of_isOk h
  exact ⟨p, parse_of_within (CharacterNames.nameless_within names) hp⟩

end Hazard
