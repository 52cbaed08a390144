import Mathlib.Data.List.Forall2
import Mathlib.Data.List.Perm.Basic
import Mathlib.Tactic.Common

/-!
Computations that may fail.

* `bind_eq_ok_iff`, `mapM_eq_ok_iff`: when steps that follow one another end well, and steps for all
  elements of a list. `mapM_eq_error_iff` says which error these end with otherwise;
* `SameOutcome`: both computations fail, or both end well with results that are related, which may
  be the same results (`sameOutcome_eq_iff`). It is kept by steps that follow (`SameOutcome.bind`),
  and with steps for all elements of a list the order of the elements shows in nothing but the order
  of the results (`SameOutcome.mapM_perm`).
-/

namespace ProcUnits

variable {ε α β γ δ : Type}

/-! ### Computations that end well -/

lemma bind_eq_ok_iff {x : Except ε α} {f : α → Except ε β} {b : β} :
    (x >>= f) = .ok b ↔ ∃ y, x = .ok y ∧ f y = .ok b := by
  cases x <;> simp [bind, Except.bind]

lemma pure_eq_ok_iff {x y : α} : (pure x : Except ε α) = .ok y ↔ x = y := by
  simp [pure, Except.pure]

/-- All elements are read just if each of them is. -/
lemma mapM_eq_ok_iff {f : α → Except ε β} {xs : List α} {ys : List β} :
    xs.mapM f = .ok ys ↔ List.Forall₂ (fun x y => f x = .ok y) xs ys := by
  induction xs generalizing ys with
  | nil =>
      rw [List.mapM_nil, pure_eq_ok_iff, List.forall₂_nil_left_iff]
      exact eq_comm
  | cons x xs ih =>
      simp only [List.mapM_cons, bind_eq_ok_iff, pure_eq_ok_iff, ih, List.forall₂_cons_left_iff]
      constructor
      · rintro ⟨y, hy, ys, hys, rfl⟩
        exact ⟨y, ys, hy, hys, rfl⟩
      · rintro ⟨y, ys, hy, hys, rfl⟩
        exact ⟨y, hy, ys, hys, rfl⟩

lemma bind_eq_error_iff {x : Except ε α} {f : α → Except ε β} {e : ε} :
    (x >>= f) = .error e ↔ x = .error e ∨ ∃ y, x = .ok y ∧ f y = .error e := by
  cases x <;> simp [bind, Except.bind]

/-- The error is that of the first element that is not read. -/
lemma mapM_eq_error_iff {f : α → Except ε β} {xs : List α} {e : ε} :
    xs.mapM f = .error e ↔ ∃ front x back, xs = front ++ x :: back
      ∧ (∀ y ∈ front, ∃ b, f y = .ok b) ∧ f x = .error e := by
  induction xs with
  | nil => simp [pure, Except.pure]
  | cons x xs ih =>
      rw [List.mapM_cons, bind_eq_error_iff]
      constructor
      · rintro (hx | ⟨b, hb, hrest⟩)
        · exact ⟨[], x, xs, rfl, by simp, hx⟩
        · rcases bind_eq_error_iff.mp hrest with hxs | ⟨bs, -, hpure⟩
          · obtain ⟨front, y, back, rfl, hfront, hy⟩ := ih.mp hxs
            exact ⟨x :: front, y, back, rfl, List.forall_mem_cons.mpr ⟨⟨b, hb⟩, hfront⟩, hy⟩
          · cases hpure
      · rintro ⟨front, y, back, heq, hfront, hy⟩
        cases front with
        | nil =>
            obtain ⟨rfl, -⟩ := List.cons.inj heq
            exact Or.inl hy
        | cons z front =>
            obtain ⟨rfl, rfl⟩ := List.cons.inj heq
            obtain ⟨⟨b, hb⟩, hfront⟩ := List.forall_mem_cons.mp hfront
            have hxs := ih.mpr ⟨front, y, back, rfl, hfront, hy⟩
            exact Or.inr ⟨b, hb, bind_eq_error_iff.mpr (Or.inl hxs)⟩

/-- There are related elements for all just if there is one for each. -/
lemma exists_forall₂_iff {R : α → β → Prop} {xs : List α} :
    (∃ ys, List.Forall₂ R xs ys) ↔ ∀ x ∈ xs, ∃ y, R x y := by
  induction xs with
  | nil => simp
  | cons x xs ih =>
      rw [List.forall_mem_cons, ← ih]
      constructor
      · rintro ⟨_, h⟩
        cases h with
        | cons hx hxs => exact ⟨⟨_, hx⟩, _, hxs⟩
      · rintro ⟨⟨y, hy⟩, ys, hys⟩
        exact ⟨y :: ys, .cons hy hys⟩

/-- Where each element is read, all are. -/
lemma mapM_eq_ok {f : α → Except ε β} {g : α → β} {l : List α} (h : ∀ x ∈ l, f x = .ok (g x)) :
    l.mapM f = .ok (l.map g) := by
  rw [mapM_eq_ok_iff, List.forall₂_map_right_iff]
  exact List.forall₂_same.mpr h

/-! ### Computations with the same outcome -/

/-- Both computations fail, whatever their errors are, or both end well with related results. -/
inductive SameOutcome (R : α → β → Prop) : Except ε α → Except ε β → Prop
  | ok {a : α} {b : β} (h : R a b) : SameOutcome R (.ok a) (.ok b)
  | error (e f : ε) : SameOutcome R (.error e) (.error f)

/-- Computations with the same outcome end well with the same results. -/
lemma sameOutcome_eq_iff {x y : Except ε α} :
    SameOutcome Eq x y ↔ ∀ a, x = .ok a ↔ y = .ok a := by
  constructor
  · rintro (rfl | _)
    · exact fun a => Iff.rfl
    · simp
  · intro h
    cases hx : x with
    | ok a =>
        rw [(h a).mp hx]
        exact .ok rfl
    | error e =>
        cases hy : y with
        | ok b =>
            rw [(h b).mpr hy] at hx
            cases hx
        | error f => exact .error e f

namespace SameOutcome

variable {R : α → β → Prop} {S : γ → δ → Prop} {x : Except ε α} {y : Except ε β}

lemma of_eq {x y : Except ε α} (h : x = y) : SameOutcome Eq x y := by
  subst h
  cases x with
  | ok a => exact .ok rfl
  | error e => exact .error e e

/-- The outcomes stay the same when steps with the same outcome follow. -/
lemma bind (h : SameOutcome R x y) {f : α → Except ε γ} {g : β → Except ε δ}
    (hfg : ∀ a b, x = .ok a → R a b → SameOutcome S (f a) (g b)) :
    SameOutcome S (x >>= f) (y >>= g) := by
  cases h with
  | ok h => exact hfg _ _ rfl h
  | error e f => exact .error e f

lemma bind_same (x : Except ε α) {f : α → Except ε γ} {g : α → Except ε δ}
    (hfg : ∀ a, SameOutcome S (f a) (g a)) : SameOutcome S (x >>= f) (x >>= g) :=
  (of_eq (Eq.refl x)).bind fun a _ _ hab => hab ▸ hfg a

lemma map (h : SameOutcome R x y) {f : α → γ} {g : β → δ} (hfg : ∀ a b, R a b → S (f a) (g b)) :
    SameOutcome S (x.map f) (y.map g) := by
  cases h with
  | ok h => exact .ok (hfg _ _ h)
  | error e f => exact .error e f

lemma trans {T : β → γ → Prop} {U : α → γ → Prop} {z : Except ε γ} (hxy : SameOutcome R x y)
    (hyz : SameOutcome T y z) (hU : ∀ a b c, R a b → T b c → U a c) : SameOutcome U x z := by
  cases hxy with
  | ok hab =>
      cases hyz with
      | ok hbc => exact .ok (hU _ _ _ hab hbc)
  | error e _ =>
      cases hyz with
      | error _ f => exact .error e f

/-! ### Steps for all elements of a list -/

variable {f : α → Except ε γ} {xs xs' ys : List α}

/-- Elements on which the outcome is the same can be exchanged. -/
lemma mapM_congr (h : List.Forall₂ (fun x y => SameOutcome Eq (f x) (f y)) xs ys) :
    SameOutcome Eq (xs.mapM f) (ys.mapM f) := by
  induction h with
  | nil => exact of_eq rfl
  | cons hxy _ ih =>
      rw [List.mapM_cons, List.mapM_cons]
      refine hxy.bind fun a b _ hab => ih.bind fun as bs _ habs => ?_
      rw [hab, habs]
      exact of_eq rfl

/-- The elements may be visited in any order. One of them may fail first in one order and another
one in another order. -/
lemma mapM_perm (h : xs.Perm ys) : SameOutcome List.Perm (xs.mapM f) (ys.mapM f) := by
  induction h with
  | nil => exact .ok .nil
  | cons x _ ih =>
      rw [List.mapM_cons, List.mapM_cons]
      exact bind_same _ fun a => ih.bind fun as bs _ habs => .ok (habs.cons a)
  | swap x y l =>
      simp only [List.mapM_cons]
      cases f y with
      | error e =>
          cases f x with
          | error e' => exact .error e e'
          | ok a => exact .error e e
      | ok b =>
          cases f x with
          | error e => exact .error e e
          | ok a =>
              cases l.mapM f with
              | error e => exact .error e e
              | ok as => exact .ok (List.Perm.swap a b as)
  | trans _ _ ih ih' => exact ih.trans ih' fun _ _ _ => List.Perm.trans

/-- The order of the elements shows in nothing but the order of the results. -/
theorem mapM_of_perm (h : List.Forall₂ (fun x y => SameOutcome Eq (f x) (f y)) xs xs')
    (hperm : xs'.Perm ys) : SameOutcome List.Perm (xs.mapM f) (ys.mapM f) :=
  (mapM_congr h).trans (mapM_perm hperm) fun _ _ _ heq hbs => heq ▸ hbs

end SameOutcome

end ProcUnits
