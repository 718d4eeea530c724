import Mathlib.Data.List.Forall2

set_option autoImplicit false

/-! # Computations that succeed

Rules and configurations are computed step by step, and the first step that fails decides the
result. So a result that is there says that each step had one, which is how such a computation is
taken apart in a proof. -/

namespace Hazard

variable {ε α β : Type}

theorem bind_eq_ok_iff (x : Except ε α) (f : α → Except ε β) (b : β) :
    (x >>= f) = .ok b ↔ ∃ a, x = .ok a ∧ f a = .ok b := by
  cases x with
  | error e =>
      constructor
      · intro h
        exact absurd h (by simp [bind, Except.bind])
      · rintro ⟨a, ha, _⟩
        simp at ha
  | ok a =>
      constructor
      · exact fun h => ⟨a, rfl, h⟩
      · rintro ⟨a', ha', h⟩
        obtain rfl := Except.ok.inj ha'
        exact h

theorem pure_eq_ok_iff (a b : α) : (pure a : Except ε α) = .ok b ↔ a = b :=
  ⟨fun h => Except.ok.inj h, fun h => congrArg Except.ok h⟩

theorem mapError_eq_error_iff {ε' : Type} (x : Except ε α) (f : ε → ε') (e' : ε') :
    x.mapError f = .error e' ↔ ∃ e, x = .error e ∧ f e = e' := by
  cases x <;> simp [Except.mapError]

theorem exists_of_isOk {x : Except ε α} (h : x.isOk = true) : ∃ a, x = .ok a := by
  cases x with
  | ok a => exact ⟨a, rfl⟩
  | error e => exact absurd h Bool.false_ne_true

theorem throw_ne_ok (e : ε) (a : α) : (throw e : Except ε α) ≠ .ok a :=
  nofun

theorem mapM_cons_eq_ok_iff (f : α → Except ε β) (x : α) (xs : List α) (ys : List β) :
    (x :: xs).mapM f = .ok ys ↔ ∃ y rest, f x = .ok y ∧ xs.mapM f = .ok rest ∧ ys = y :: rest := by
  rw [List.mapM_cons]
  simp only [bind_eq_ok_iff, pure_eq_ok_iff]
  constructor
  · rintro ⟨y, hy, rest, hrest, rfl⟩
    exact ⟨y, rest, hy, hrest, rfl⟩
  · rintro ⟨y, rest, hy, hrest, rfl⟩
    exact ⟨y, hy, rest, hrest, rfl⟩

/-- Every result comes from an item. -/
theorem exists_of_mem_mapM {f : α → Except ε β} {xs : List α} {ys : List β} {y : β}
    (h : xs.mapM f = .ok ys) (hy : y ∈ ys) : ∃ x ∈ xs, f x = .ok y := by
  induction xs generalizing ys with
  | nil =>
      obtain rfl : [] = ys := (pure_eq_ok_iff _ _).mp h
      simp at hy
  | cons x xs ih =>
      obtain ⟨y', rest, hx, hrest, rfl⟩ := (mapM_cons_eq_ok_iff f x xs ys).mp h
      rcases List.mem_cons.mp hy with rfl | hy
      · exact ⟨x, List.mem_cons_self, hx⟩
      · obtain ⟨x', hx', hy'⟩ := ih hrest hy
        exact ⟨x', List.mem_cons_of_mem _ hx', hy'⟩

/-- Every item has a result. -/
theorem exists_of_mapM_eq_ok {f : α → Except ε β} {xs : List α} {ys : List β} {x : α}
    (h : xs.mapM f = .ok ys) (hx : x ∈ xs) : ∃ y, f x = .ok y := by
  induction xs generalizing ys with
  | nil => simp at hx
  | cons x' xs ih =>
      obtain ⟨y, rest, hy, hrest, rfl⟩ := (mapM_cons_eq_ok_iff f x' xs ys).mp h
      rcases List.mem_cons.mp hx with rfl | hx
      · exact ⟨y, hy⟩
      · exact ih hrest hx

/-- The result of every item is among the results. -/
theorem mem_of_mapM_eq_ok {f : α → Except ε β} {xs : List α} {ys : List β} {x : α} {y : β}
    (h : xs.mapM f = .ok ys) (hx : x ∈ xs) (hy : f x = .ok y) : y ∈ ys := by
  induction xs generalizing ys with
  | nil => simp at hx
  | cons x' xs ih =>
      obtain ⟨y', rest, hy', hrest, rfl⟩ := (mapM_cons_eq_ok_iff f x' xs ys).mp h
      rcases List.mem_cons.mp hx with rfl | hx
      · obtain rfl := Except.ok.inj (hy.symm.trans hy')
        exact List.mem_cons_self
      · exact List.mem_cons_of_mem _ (ih hrest hx)

/-- Whether there are results, and which, depends only on the results of the items. -/
theorem mapM_eq_ok_congr {f g : α → Except ε β} {xs : List α}
    (h : ∀ x ∈ xs, ∀ y, f x = .ok y ↔ g x = .ok y) (ys : List β) :
    xs.mapM f = .ok ys ↔ xs.mapM g = .ok ys := by
  induction xs generalizing ys with
  | nil => exact Iff.rfl
  | cons x xs ih =>
      have hrest := ih fun x' hx' => h x' (List.mem_cons_of_mem _ hx')
      simp only [mapM_cons_eq_ok_iff, h x List.mem_cons_self, hrest]

/-- What each result keeps of its item, the results keep of the items, in order. -/
theorem map_eq_of_mapM {γ : Type} {f : α → Except ε β} {xs : List α} {ys : List β} (g : β → γ)
    (g' : α → γ) (hg : ∀ x y, f x = .ok y → g y = g' x) (h : xs.mapM f = .ok ys) :
    ys.map g = xs.map g' := by
  induction xs generalizing ys with
  | nil =>
      obtain rfl : [] = ys := (pure_eq_ok_iff _ _).mp h
      rfl
  | cons x xs ih =>
      obtain ⟨y, rest, hx, hrest, rfl⟩ := (mapM_cons_eq_ok_iff f x xs ys).mp h
      rw [List.map_cons, List.map_cons, hg x y hx, ih hrest]

/-- The results of some of the items are the corresponding ones of all results. -/
theorem mapM_filter {f : α → Except ε β} {xs : List α} {ys : List β} {p : α → Bool} {q : β → Bool}
    (hpq : ∀ x y, f x = .ok y → q y = p x) (h : xs.mapM f = .ok ys) :
    (xs.filter p).mapM f = .ok (ys.filter q) := by
  induction xs generalizing ys with
  | nil =>
      obtain rfl : [] = ys := (pure_eq_ok_iff _ _).mp h
      rfl
  | cons x xs ih =>
      obtain ⟨y, rest, hx, hrest, rfl⟩ := (mapM_cons_eq_ok_iff f x xs ys).mp h
      have hq := hpq x y hx
      cases hp : p x with
      | false =>
          rw [hp] at hq
          rw [List.filter_cons_of_neg (by simp [hp]), List.filter_cons_of_neg (by simp [hq])]
          exact ih hrest
      | true =>
          rw [hp] at hq
          rw [List.filter_cons_of_pos hp, List.filter_cons_of_pos hq]
          exact (mapM_cons_eq_ok_iff f x _ _).mpr ⟨y, rest.filter q, hx, ih hrest, rfl⟩

/-- Items that correspond to one another have results that do so. -/
theorem forall₂_of_mapM {f : α → Except ε β} {R : α → α → Prop} {S : β → β → Prop}
    (hRS : ∀ x x' y y', R x x' → f x = .ok y → f x' = .ok y' → S y y') {xs xs' : List α}
    {ys ys' : List β} (hR : List.Forall₂ R xs xs') (h : xs.mapM f = .ok ys)
    (h' : xs'.mapM f = .ok ys') : List.Forall₂ S ys ys' := by
  induction hR generalizing ys ys' with
  | nil =>
      obtain rfl : [] = ys := (pure_eq_ok_iff _ _).mp h
      obtain rfl : [] = ys' := (pure_eq_ok_iff _ _).mp h'
      exact .nil
  | cons hx _ ih =>
      obtain ⟨y, rest, hy, hrest, rfl⟩ := (mapM_cons_eq_ok_iff f _ _ ys).mp h
      obtain ⟨y', rest', hy', hrest', rfl⟩ := (mapM_cons_eq_ok_iff f _ _ ys').mp h'
      exact .cons (hRS _ _ y y' hx hy hy') (ih hrest hrest')

/-- There are as many results as items. -/
theorem length_of_mapM_eq_ok {f : α → Except ε β} {xs : List α} {ys : List β}
    (h : xs.mapM f = .ok ys) : ys.length = xs.length := by
  have hunits := map_eq_of_mapM (fun _ => ()) (fun _ => ()) (fun _ _ _ => rfl) h
  simpa using congrArg List.length hunits

theorem exists_bind_eq_ok {x : Except ε α} {f : α → Except ε β} (hx : ∃ a, x = .ok a)
    (hf : ∀ a, x = .ok a → ∃ b, f a = .ok b) : ∃ b, (x >>= f) = .ok b := by
  obtain ⟨a, ha⟩ := hx
  obtain ⟨b, hb⟩ := hf a ha
  exact ⟨b, (bind_eq_ok_iff x f b).mpr ⟨a, ha, hb⟩⟩

/-- There are results if every item has one. -/
theorem exists_mapM_eq_ok {f : α → Except ε β} {xs : List α} (h : ∀ x ∈ xs, ∃ y, f x = .ok y) :
    ∃ ys, xs.mapM f = .ok ys := by
  induction xs with
  | nil => exact ⟨[], rfl⟩
  | cons x xs ih =>
      obtain ⟨y, hy⟩ := h x List.mem_cons_self
      obtain ⟨ys, hys⟩ := ih fun x' hx' => h x' (List.mem_cons_of_mem _ hx')
      exact ⟨y :: ys, (mapM_cons_eq_ok_iff f x xs _).mpr ⟨y, ys, hy, hys, rfl⟩⟩

/-- Where every item has a result that fits it, the results fit the items one by one. -/
theorem exists_mapM_forall₂ {f : α → Except ε β} {R : α → β → Prop} {xs : List α}
    (h : ∀ x ∈ xs, ∃ y, f x = .ok y ∧ R x y) : ∃ ys, xs.mapM f = .ok ys ∧ List.Forall₂ R xs ys := by
  induction xs with
  | nil => exact ⟨[], rfl, .nil⟩
  | cons x xs ih =>
      obtain ⟨y, hy, hR⟩ := h x List.mem_cons_self
      obtain ⟨ys, hys, hall⟩ := ih fun x' hx' => h x' (List.mem_cons_of_mem _ hx')
      exact ⟨y :: ys, (mapM_cons_eq_ok_iff f x xs _).mpr ⟨y, ys, hy, hys, rfl⟩, .cons hR hall⟩

/-- Where some items have one result that fits them and the others have none, the results fit the
    items that have one. -/
theorem exists_flatten_mapM_forall₂ {f : α → Except ε (List β)} {p : α → Bool} {R : α → β → Prop}
    {xs : List α} (hone : ∀ x ∈ xs, p x = true → ∃ y, f x = .ok [y] ∧ R x y)
    (hnone : ∀ x ∈ xs, p x = false → f x = .ok []) :
    ∃ yss, xs.mapM f = .ok yss ∧ List.Forall₂ R (xs.filter p) yss.flatten := by
  induction xs with
  | nil => exact ⟨[], rfl, .nil⟩
  | cons x xs ih =>
      obtain ⟨yss, hyss, hall⟩ := ih (fun x' hx' => hone x' (List.mem_cons_of_mem _ hx'))
        fun x' hx' => hnone x' (List.mem_cons_of_mem _ hx')
      cases hp : p x with
      | false =>
          have hx := hnone x List.mem_cons_self hp
          refine ⟨[] :: yss, (mapM_cons_eq_ok_iff f x xs _).mpr ⟨_, _, hx, hyss, rfl⟩, ?_⟩
          rw [List.filter_cons_of_neg (by simp [hp])]
          exact hall
      | true =>
          obtain ⟨y, hx, hR⟩ := hone x List.mem_cons_self hp
          refine ⟨[y] :: yss, (mapM_cons_eq_ok_iff f x xs _).mpr ⟨_, _, hx, hyss, rfl⟩, ?_⟩
          rw [List.filter_cons_of_pos hp]
          exact .cons hR hall

/-- Where every item has a known result, so have all of them. -/
theorem mapM_eq_ok_map {f : α → Except ε β} {g : α → β} {xs : List α}
    (h : ∀ x ∈ xs, f x = .ok (g x)) : xs.mapM f = .ok (xs.map g) := by
  induction xs with
  | nil => rfl
  | cons x xs ih =>
      have hrest := ih fun x' hx' => h x' (List.mem_cons_of_mem _ hx')
      exact (mapM_cons_eq_ok_iff f x xs _).mpr ⟨g x, xs.map g, h x List.mem_cons_self, hrest, rfl⟩

/-- Lists that are worked through one after the other can be put together first. -/
theorem mapM_flatMap {γ : Type} (f : β → Except ε γ) (g : α → List β) (xs : List α) :
    (xs.flatMap g).mapM f = (do return (← xs.mapM fun x => (g x).mapM f).flatten) := by
  induction xs with
  | nil => rfl
  | cons x xs ih =>
      rw [List.flatMap_cons, List.mapM_append, ih, List.mapM_cons]
      simp

/-- Items that have been made from their results are taken back to them. -/
theorem mapM_map_eq_ok {f : β → Except ε α} {g : α → β} {xs : List α}
    (h : ∀ x ∈ xs, f (g x) = .ok x) : (xs.map g).mapM f = .ok xs := by
  induction xs with
  | nil => rfl
  | cons x xs ih =>
      have hx := h x List.mem_cons_self
      have hrest := ih fun x' hx' => h x' (List.mem_cons_of_mem _ hx')
      exact (mapM_cons_eq_ok_iff f (g x) (xs.map g) _).mpr ⟨x, xs, hx, hrest, rfl⟩

/-- Every item of the lists that are computed for some items is in the list of one of them. -/
theorem exists_of_mem_flatten_mapM {f : α → Except ε (List β)} {xs : List α} {yss : List (List β)}
    {y : β} (h : xs.mapM f = .ok yss) (hy : y ∈ yss.flatten) :
    ∃ x ∈ xs, ∃ ys, f x = .ok ys ∧ y ∈ ys := by
  obtain ⟨ys, hys, hy⟩ := List.mem_flatten.mp hy
  obtain ⟨x, hx, hf⟩ := exists_of_mem_mapM h hys
  exact ⟨x, hx, ys, hf, hy⟩

/-! ## Failures -/

/-- A computation that fails does so with an error of a kind. -/
def FailsOnly (P : ε → Prop) (x : Except ε α) : Prop := ∀ e, x = .error e → P e

namespace FailsOnly

variable {P : ε → Prop}

theorem pure (a : α) : FailsOnly P (pure a) := by
  intro e he
  simp [Pure.pure, Except.pure] at he

theorem bind {x : Except ε α} {f : α → Except ε β} (hx : FailsOnly P x)
    (hf : ∀ a, x = .ok a → FailsOnly P (f a)) : FailsOnly P (x >>= f) := by
  intro e he
  cases h : x with
  | error e' =>
      rw [h] at he
      exact hx e (h.trans (congrArg Except.error (Except.error.inj he)))
  | ok a =>
      rw [h] at he
      exact hf a h e he

theorem mapM {f : α → Except ε β} {xs : List α} (h : ∀ x ∈ xs, FailsOnly P (f x)) :
    FailsOnly P (xs.mapM f) := by
  induction xs with
  | nil => exact pure []
  | cons x xs ih =>
      rw [List.mapM_cons]
      refine (h x List.mem_cons_self).bind fun y _ => ?_
      exact (ih fun x' hx' => h x' (List.mem_cons_of_mem _ hx')).bind fun ys _ => pure _

end FailsOnly

/-- Where there is one way to fail and some item does, all of them together do. -/
theorem mapM_eq_error {f : α → Except ε β} {xs : List α} {x : α} {e : ε}
    (h : ∀ x ∈ xs, FailsOnly (· = e) (f x)) (hx : x ∈ xs) (hfails : f x = .error e) :
    xs.mapM f = .error e := by
  cases hall : xs.mapM f with
  | error e' => rw [FailsOnly.mapM h e' hall]
  | ok ys =>
      obtain ⟨y, hy⟩ := exists_of_mapM_eq_ok hall hx
      rw [hfails] at hy
      cases hy

end Hazard
