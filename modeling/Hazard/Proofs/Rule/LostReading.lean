import Hazard.Proofs.Explore
import Hazard.Rule.Time
import Mathlib.Data.List.Chain
import Mathlib.Data.List.Nodup

set_option autoImplicit false

/-! # Where a monotonic reading was lost

An instant says which instant it was derived from, that one says the same, and so on. The links are
taken from the source as they are: they can come back to an instant, and they can end in a name that
nothing has. `Model.derivationChain` follows them until a name comes again, and what it returns is
the longest way to follow them, since every other one is a beginning of it
(`Derivation.isPrefix_derivationChain`).

An instant without a monotonic reading lost it at the last instant of the chain before one that has
it, or at the end of the chain if none has it. Instants behind that one do not matter, whatever they
lost themselves. The rule about elapsed time names the transformation that was made there
(`strippingTransformation_eq_lost`). -/

namespace Hazard

/-! ## Chains of a function -/

/-- Two chains of a relation that is a function, with the same start, go the same way as far as the
    shorter one goes. -/
theorem prefix_or_prefix_of_isChain {α : Type} {R : α → α → Prop}
    (hR : ∀ a b c, R a b → R a c → b = c) {a : α} {xs ys : List α}
    (hxs : (a :: xs).IsChain R) (hys : (a :: ys).IsChain R) : xs <+: ys ∨ ys <+: xs := by
  induction xs generalizing a ys with
  | nil => exact Or.inl (List.nil_prefix)
  | cons x xs ih =>
      cases ys with
      | nil => exact Or.inr (List.nil_prefix)
      | cons y ys =>
          obtain ⟨hax, hxs⟩ := List.isChain_cons_cons.mp hxs
          obtain ⟨hay, hys⟩ := List.isChain_cons_cons.mp hys
          obtain rfl := hR a x y hax hay
          rw [List.prefix_cons_inj, List.prefix_cons_inj]
          exact ih hxs hys

namespace Model

variable (m : Model)

/-! ## Derivations -/

/-- The instant says that it was derived from the other one. -/
def DerivedFrom (i j : Instant) : Prop :=
  ∃ name, i.derivedFrom = some name ∧ name ≠ "" ∧ m.instant? name = some j

theorem parent?_eq_some_iff (i j : Instant) : m.parent? i = some j ↔ m.DerivedFrom i j := by
  unfold parent? DerivedFrom
  cases i.derivedFrom with
  | none => simp
  | some name => simp

theorem DerivedFrom.unique {m : Model} {i j k : Instant} (hj : m.DerivedFrom i j)
    (hk : m.DerivedFrom i k) : j = k := by
  rw [← parent?_eq_some_iff] at hj hk
  exact Option.some.inj (hj.symm.trans hk)

/-- The instants start with the one that the name stands for, each of them was derived from the
    next, and no two have the same name. -/
structure Derivation (name : String) (chain : List Instant) : Prop where
  head : ∀ i ∈ chain.head?, m.instant? name = some i
  links : chain.IsChain m.DerivedFrom
  distinct : (chain.map (·.name)).Nodup

/-! ## The chain that is found -/

theorem mem_names_of_instant? {m : Model} {name : String} {i : Instant}
    (h : m.instant? name = some i) : i.name ∈ m.instants.map (·.name) :=
  List.mem_map_of_mem (List.mem_of_find?_eq_some h)

/-- What an instant was derived from is one of the instants, so that there is room for all of
    them. -/
theorem mem_names_of_mem_parent? {i j : Instant} (h : j ∈ (m.parent? i).toList) :
    j.name ∈ m.instants.map (·.name) := by
  rw [Option.mem_toList, parent?_eq_some_iff] at h
  obtain ⟨_, _, _, hj⟩ := h
  exact mem_names_of_instant? hj

theorem mem_names_of_mem_start {name : String} :
    ∀ i ∈ (m.instant? name).toList, i.name ∈ m.instants.map (·.name) := by
  intro i hi
  rw [Option.mem_toList] at hi
  exact mem_names_of_instant? hi

/-- What holds between two steps of the search: what was found and what waits form one chain from
    the instant that was asked for, and no more than one instant waits. -/
structure Following (name : String) (done waiting : List Instant) : Prop where
  head : (done ++ waiting).head? = m.instant? name
  links : (done ++ waiting).IsChain m.DerivedFrom
  single : waiting.length ≤ 1

theorem Following.step {m : Model} {name : String} {done waiting : List Instant} {item : Instant}
    (h : m.Following name done (item :: waiting)) (met : List String) :
    m.Following name (done ++ [item])
      (waiting ++ novel (·.name) met (m.parent? item).toList) := by
  obtain ⟨hhead, hlinks, hsingle⟩ := h
  obtain rfl : waiting = [] := List.eq_nil_of_length_eq_zero (by simpa using hsingle)
  have hnew : ∀ j ∈ novel (·.name) met (m.parent? item).toList, m.DerivedFrom item j := by
    intro j hj
    have hparent := (mem_of_mem_novel hj).1
    rwa [Option.mem_toList, parent?_eq_some_iff] at hparent
  rw [List.nil_append]
  cases hparent : novel (·.name) met (m.parent? item).toList with
  | nil => exact ⟨by simpa using hhead, by simpa using hlinks, by simp⟩
  | cons j rest =>
      have hlength : (novel (·.name) met (m.parent? item).toList).length ≤ 1 := by
        cases m.parent? item with
        | none => simp [novel]
        | some p =>
            simp only [Option.toList_some, novel]
            split <;> simp
      obtain rfl : rest = [] := by
        rw [hparent] at hlength
        exact List.eq_nil_of_length_eq_zero (by simpa using hlength)
      refine ⟨?_, ?_, by simp⟩
      · rw [← hhead]
        cases done <;> simp
      · rw [List.append_assoc]
        refine List.isChain_append_cons_cons.mpr ⟨hlinks, ?_, List.isChain_singleton j⟩
        exact hnew j (hparent ▸ List.mem_cons_self)

theorem derivationChain_following (name : String) :
    m.Following name (m.derivationChain name) [] := by
  have hstart : m.Following name [] (novel (·.name) [] (m.instant? name).toList) := by
    cases hname : m.instant? name with
    | none => exact ⟨by simp [novel, hname], by simp [novel], by simp [novel]⟩
    | some i => exact ⟨by simp [novel, hname], by simp [novel], by simp [novel]⟩
  obtain ⟨_, hend⟩ := exploreFrom_keeps (P := fun done waiting _ => m.Following name done waiting)
    (fun _ _ _ h => m.mem_names_of_mem_parent? h) m.mem_names_of_mem_start
    (Nat.le_of_eq (List.length_map _)) (fun _ _ _ met _ h => h.step met) hstart
  exact hend

/-- The chain that is found follows the derivations. -/
theorem derivationChain_derivation (name : String) :
    m.Derivation name (m.derivationChain name) := by
  obtain ⟨hhead, hlinks, _⟩ := m.derivationChain_following name
  rw [List.append_nil] at hhead hlinks
  refine ⟨?_, hlinks, ?_⟩
  · intro i hi
    rw [← hhead]
    exact hi
  · exact exploreFrom_nodup (fun _ _ _ h => m.mem_names_of_mem_parent? h)
      m.mem_names_of_mem_start (by simp)

/-- The chain that is found ends where nothing comes any more, or nothing new. -/
theorem derivationChain_closed (name : String) {i j : Instant} (hi : i ∈ m.derivationChain name)
    (hj : m.DerivedFrom i j) : j.name ∈ (m.derivationChain name).map (·.name) :=
  exploreFrom_closed (fun _ _ _ h => m.mem_names_of_mem_parent? h) m.mem_names_of_mem_start
    (by simp) i hi j (by rwa [Option.mem_toList, parent?_eq_some_iff])

theorem head?_derivationChain (name : String) :
    (m.derivationChain name).head? = m.instant? name := by
  simpa using (m.derivationChain_following name).head

/-- Whoever follows the derivations without coming to a name twice goes along the chain that is
    found. -/
theorem Derivation.isPrefix_derivationChain {m : Model} {name : String} {chain : List Instant}
    (h : m.Derivation name chain) : chain <+: m.derivationChain name := by
  have hfound := m.derivationChain_derivation name
  have hhead := m.head?_derivationChain name
  have hclosed := fun {i j} => @derivationChain_closed m name i j
  generalize m.derivationChain name = found at hfound hhead hclosed ⊢
  cases chain with
  | nil => exact List.nil_prefix
  | cons i chain =>
      have hi : m.instant? name = some i := h.head i rfl
      rw [hi] at hhead
      obtain ⟨found, rfl⟩ := List.head?_eq_some_iff.mp hhead
      rw [List.prefix_cons_inj]
      rcases prefix_or_prefix_of_isChain (fun _ _ _ hj hk => hj.unique hk) h.links hfound.links with
        hprefix | ⟨rest, rfl⟩
      · exact hprefix
      · cases rest with
        | nil => simp
        | cons j rest =>
            -- The instant after the end of the chain that is found would be one of the chain.
            have hchain := h.links
            have hdistinct := h.distinct
            rw [← List.cons_append] at hchain hdistinct
            have hlink : m.DerivedFrom ((i :: found).getLast (List.cons_ne_nil _ _)) j :=
              hchain.rel_getLast_head_of_append (List.cons_ne_nil _ _) (List.cons_ne_nil _ _)
            have hagain := hclosed (List.getLast_mem _) hlink
            rw [List.map_append, List.nodup_append] at hdistinct
            exact absurd rfl (hdistinct.2.2 j.name hagain j.name (by simp))

/-! ## The loss -/

/-- The monotonic reading of a name was lost at the instant: it is the last one of its chain up to
    which no instant has the reading. -/
def LostAt (name : String) (lost : Instant) : Prop :=
  ∃ before after, m.derivationChain name = before ++ lost :: after
    ∧ (∀ i ∈ before, i.monotonic = false) ∧ lost.monotonic = false
    ∧ ∀ i ∈ after.head?, i.monotonic = true

end Model

/-- In a chain that starts without a monotonic reading, the loss is at the last instant before the
    first one with the reading. -/
theorem Instant.loss?_eq_some {chain : List Instant} {i : Instant} (hhead : i ∈ chain.head?)
    (hi : i.monotonic = false) :
    ∃ before lost after, chain = before ++ lost :: after ∧ (∀ j ∈ before, j.monotonic = false)
      ∧ lost.monotonic = false ∧ (∀ j ∈ after.head?, j.monotonic = true)
      ∧ loss? chain = some lost := by
  fun_induction loss? chain generalizing i with
  | case1 => simp at hhead
  | case2 last hmonotonic =>
      obtain rfl : last = i := by simpa using hhead
      exact absurd (hi.symm.trans hmonotonic) (by simp)
  | case3 last _ =>
      obtain rfl : last = i := by simpa using hhead
      exact ⟨[], last, [], rfl, by simp, hi, by simp, rfl⟩
  | case4 first parent rest hlost =>
      rw [Bool.and_eq_true, Bool.not_eq_true'] at hlost
      exact ⟨[], first, parent :: rest, rfl, by simp, hlost.1, by simpa using hlost.2, rfl⟩
  | case5 first parent rest hkept ih =>
      obtain rfl : first = i := by simpa using hhead
      have hparent : parent.monotonic = false := by simpa [hi] using hkept
      obtain ⟨before, lost, after, hchain, hbefore, hlost, hafter, hloss⟩ := ih rfl hparent
      refine ⟨first :: before, lost, after, by rw [hchain, List.cons_append], ?_, hlost, hafter,
        hloss⟩
      simpa [hi] using hbefore

namespace Model

theorem exists_lostAt {m : Model} {name : String} {i : Instant} (hname : m.instant? name = some i)
    (hi : i.monotonic = false) :
    ∃ lost, m.LostAt name lost ∧ m.strippingTransformation name = lost.transformation := by
  have hhead : i ∈ (m.derivationChain name).head? := by
    rw [m.head?_derivationChain name, hname]
    rfl
  obtain ⟨before, lost, after, hchain, hbefore, hlost, hafter, hloss⟩ :=
    Instant.loss?_eq_some hhead hi
  refine ⟨lost, ⟨before, after, hchain, hbefore, hlost, hafter⟩, ?_⟩
  rw [strippingTransformation, hloss]
  rfl

end Model

namespace ElapsedSign

/-- Whether a duration is measured from an instant without a monotonic reading. -/
def isWallClock (m : Model) (e : Elapsed) : Bool := (m.instant? e.instant).any (!·.monotonic)

/-- The candidate is about the duration. It shows how the instant was derived and says by which
    transformation the reading was lost, if that is known. -/
structure Tells (m : Model) (e : Elapsed) (c : Candidate) : Prop where
  rule : c.rule = "Tm.3"
  location : c.location = m.locate [e.location, (m.instant? e.instant).bind (·.location)]
  waivers : c.waivers = e.waivers
  instant : c.extras.lookup "instant" = some (.text e.instant)
  derivation : c.extras.lookup "derivation"
    = some (.texts ((m.derivationChain e.instant).map (·.name)))
  cause : ∃ lost, m.LostAt e.instant lost
    ∧ c.extras.lookup "stripped_by" = some ((lost.transformation.map Value.text).getD .null)
    ∧ ∀ t ∈ lost.transformation, t ≠ "" → ∃ start rest,
      c.message = start ++ s!" (monotonic reading dropped by {t})" ++ rest

theorem finding?_eq_none {m : Model} {e : Elapsed} (h : isWallClock m e = false) :
    finding? m e = none := by
  unfold isWallClock at h
  unfold finding?
  cases hi : m.instant? e.instant with
  | none => rfl
  | some i =>
      have hmonotonic : i.monotonic = true := by simpa [hi] using h
      simp [hmonotonic]

theorem exists_finding?_tells {m : Model} {e : Elapsed} (h : isWallClock m e = true) :
    ∃ c, finding? m e = some c ∧ Tells m e c := by
  obtain ⟨i, hi, hmonotonic⟩ := (Option.any_eq_true _ _).mp h
  rw [Bool.not_eq_true'] at hmonotonic
  obtain ⟨lost, hlost, hcause⟩ := Model.exists_lostAt hi hmonotonic
  have hname : i.name = e.instant := by simpa using List.find?_some hi
  unfold finding?
  rw [hi, Option.bind_eq_bind, Option.bind_some, if_neg (by simp [hmonotonic]), hname, hcause]
  refine ⟨_, rfl, rfl, ?_, rfl, rfl, rfl, lost, hlost, rfl, ?_⟩
  · rw [hi]
    rfl
  · intro t ht hne
    rw [Option.mem_def] at ht
    dsimp only [RuleInfo.candidate]
    rw [ht]
    dsimp only
    rw [if_neg (by simpa using hne)]
    exact ⟨s!"elapsed time is computed from '{e.instant}', which has no monotonic reading",
      "; " ++ "a wall-clock step can make the duration negative", by
        simp [toString, String.append_assoc]⟩

/-- **The true cause is named.** The chain of an instant follows the derivations from it without
    coming to a name twice, and every other way to do so is a beginning of it. The transformation
    found for an instant without a monotonic reading is that of the instant at which the reading
    was lost, and the rule reports each duration that is measured from such an instant, with that
    cause. -/
theorem strippingTransformation_eq_lost (m : Model) :
    (∀ name, m.Derivation name (m.derivationChain name)
      ∧ ∀ chain, m.Derivation name chain → chain <+: m.derivationChain name)
    ∧ (∀ name i, m.instant? name = some i → i.monotonic = false →
      ∃ lost, m.LostAt name lost ∧ m.strippingTransformation name = lost.transformation)
    ∧ ∀ s, ∃ candidates, rule.evaluate m s = .ok candidates
      ∧ List.Forall₂ (Tells m) (m.elapsed.filter (isWallClock m)) candidates := by
  refine ⟨fun name => ⟨m.derivationChain_derivation name, ?_⟩, ?_, fun s => ⟨_, rfl, ?_⟩⟩
  · intro chain hchain
    exact hchain.isPrefix_derivationChain
  · intro name i hname hi
    exact Model.exists_lostAt hname hi
  · induction m.elapsed with
    | nil => exact List.Forall₂.nil
    | cons e rest ih =>
        cases he : isWallClock m e with
        | false =>
            rw [List.filter_cons_of_neg (by simp [he]),
              List.filterMap_cons_none (finding?_eq_none he)]
            exact ih
        | true =>
            obtain ⟨c, hc, htells⟩ := exists_finding?_tells he
            rw [List.filter_cons_of_pos he, List.filterMap_cons_some hc]
            exact List.Forall₂.cons htells ih

/-- An instant that lost its reading when it was rounded. -/
def rounded : Instant where
  name := "rounded"
  monotonic := false
  derivedFrom := some "start"
  transformation := some "Round(0)"

/-- An instant that was saved after it had lost its reading. -/
def saved : Instant where
  name := "saved"
  monotonic := false
  derivedFrom := some "rounded"
  transformation := some "Unmarshal"

/-- A unit in which the derivations go on behind the loss, through an instant with a reading to one
    without it, and come back to the beginning. -/
def comingBack : Model where
  unit := "u"
  instants := [saved, rounded, { name := "start", derivedFrom := some "epoch" },
    { name := "epoch", monotonic := false, derivedFrom := some "saved",
      transformation := some "UTC()" }]
  elapsed := [{ instant := "saved" }]

/-- The reading was lost by rounding, neither before nor after it. -/
theorem strippingTransformation_eq_lost_comingBack :
    [saved, rounded] <+: comingBack.derivationChain "saved" ∧ ∃ lost,
      comingBack.LostAt "saved" lost ∧ lost.transformation = some "Round(0)" := by
  obtain ⟨hchain, hcause, _⟩ := strippingTransformation_eq_lost comingBack
  constructor
  · refine (hchain "saved").2 _ ⟨?_, ?_, by decide⟩
    · intro i hi
      obtain rfl : saved = i := by simpa using hi
      rfl
    · exact List.isChain_pair.mpr ⟨"rounded", rfl, by decide, rfl⟩
  · obtain ⟨lost, hlost, htransformation⟩ := hcause "saved" saved rfl rfl
    exact ⟨lost, hlost, htransformation.symm.trans (by decide)⟩

end ElapsedSign

end Hazard
