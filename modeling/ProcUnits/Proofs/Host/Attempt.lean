import Mathlib.Order.Defs.Unbundled
import Mathlib.Tactic.Common
import ProcUnits.Host

/-!
How steps on a host end.

* `Attempt.Ends`: an attempt, begun on one host, ends with a result on another host. Each attempt
  ends in exactly one way (`exists_ends`, `Ends.unique`);
* `ends_bind` and the lemmas beside it: how an attempt ends that is made of others. A proof about
  an attempt takes it apart by them, from the host it begins on to the one it ends on;
* `Attempt.Raises`: the errors that an attempt can end with;
* `Attempt.Within`: what holds between the hosts that an attempt begins and ends on. Of a relation
  that is reflexive and transitive this is seen step by step (`Within.bind`).
-/

namespace ProcUnits.Host

variable {ε ε' α β : Type} {h h' h₁ h₂ : Host} {r : Except ε α}

/-- The attempt, begun on the host `h`, ends with the result `r` on the host `h'`. -/
def Attempt.Ends (m : Attempt ε α) (h : Host) (r : Except ε α) (h' : Host) : Prop :=
  m.run.run h = (r, h')

namespace Attempt

/-- Each attempt ends. -/
lemma exists_ends (m : Attempt ε α) (h : Host) : ∃ r h', m.Ends h r h' :=
  ⟨_, _, rfl⟩

/-- An attempt ends in one way only. -/
lemma Ends.unique {m : Attempt ε α} {r₁ r₂ : Except ε α} (h₁' : m.Ends h r₁ h₁)
    (h₂' : m.Ends h r₂ h₂) : r₁ = r₂ ∧ h₁ = h₂ :=
  Prod.mk.inj (h₁'.symm.trans h₂')

/-! ### Single steps -/

lemma ends_pure {a : α} : (pure a : Attempt ε α).Ends h r h' ↔ r = .ok a ∧ h' = h := by
  constructor
  · intro he
    cases he
    exact ⟨rfl, rfl⟩
  · rintro ⟨rfl, rfl⟩
    rfl

lemma ends_throw {e : ε} : (throw e : Attempt ε α).Ends h r h' ↔ r = .error e ∧ h' = h := by
  constructor
  · intro he
    cases he
    exact ⟨rfl, rfl⟩
  · rintro ⟨rfl, rfl⟩
    rfl

lemma ends_get {r : Except ε Host} : (get : Attempt ε Host).Ends h r h' ↔ r = .ok h ∧ h' = h := by
  constructor
  · intro he
    cases he
    exact ⟨rfl, rfl⟩
  · rintro ⟨rfl, rfl⟩
    rfl

lemma ends_modify {f : Host → Host} {r : Except ε Unit} :
    (modify f : Attempt ε Unit).Ends h r h' ↔ r = .ok () ∧ h' = f h := by
  constructor
  · intro he
    cases he
    exact ⟨rfl, rfl⟩
  · rintro ⟨rfl, rfl⟩
    rfl

/-- A step that cannot fail ends as it does by itself. -/
lemma ends_lift {m : Act α} :
    (liftM m : Attempt ε α).Ends h r h' ↔ r = .ok (m.run h).1 ∧ h' = (m.run h).2 := by
  constructor
  · intro he
    cases he
    exact ⟨rfl, rfl⟩
  · rintro ⟨rfl, rfl⟩
    rfl

/-- What fails or not without a look at the host leaves it as it is. -/
lemma ends_liftExcept {x : Except ε α} :
    (liftM x : Attempt ε α).Ends h r h' ↔ r = x ∧ h' = h := by
  constructor
  · intro he
    cases he
    exact ⟨rfl, rfl⟩
  · rintro ⟨rfl, rfl⟩
    rfl

/-! ### Composed steps -/

lemma ends_bind {m : Attempt ε α} {f : α → Attempt ε β} {r : Except ε β} :
    (m >>= f).Ends h r h' ↔ (∃ e, m.Ends h (.error e) h' ∧ r = .error e)
      ∨ ∃ a h₁, m.Ends h (.ok a) h₁ ∧ (f a).Ends h₁ r h' := by
  obtain ⟨r₀, h₀, hm⟩ := exists_ends m h
  have hrun : (m >>= f).run.run h = match r₀ with
      | .ok a => (f a).run.run h₀
      | .error e => (.error e, h₀) := by
    have hm' : m.run.run h = (r₀, h₀) := hm
    rw [ExceptT.run_bind, StateT.run_bind, hm']
    cases r₀ <;> rfl
  constructor
  · intro he
    rw [Ends, hrun] at he
    cases r₀ with
    | ok a => exact Or.inr ⟨a, h₀, hm, he⟩
    | error e =>
        cases he
        exact Or.inl ⟨e, hm, rfl⟩
  · rintro (⟨e, he, rfl⟩ | ⟨a, h₁, he, hf⟩)
    · obtain ⟨rfl, rfl⟩ := hm.unique he
      exact hrun
    · obtain ⟨rfl, rfl⟩ := hm.unique he
      exact hrun.trans hf

/-- An attempt that does its work has done that of all its steps. -/
lemma ends_bind_ok {m : Attempt ε α} {f : α → Attempt ε β} {b : β} :
    (m >>= f).Ends h (.ok b) h' ↔ ∃ a h₁, m.Ends h (.ok a) h₁ ∧ (f a).Ends h₁ (.ok b) h' := by
  rw [ends_bind]
  simp

/-- An attempt fails in one of its steps. -/
lemma ends_bind_error {m : Attempt ε α} {f : α → Attempt ε β} {e : ε} :
    (m >>= f).Ends h (.error e) h' ↔ m.Ends h (.error e) h'
      ∨ ∃ a h₁, m.Ends h (.ok a) h₁ ∧ (f a).Ends h₁ (.error e) h' := by
  rw [ends_bind]
  simp

/-- What depends on the host begins on that host. -/
lemma ends_get_bind {f : Host → Attempt ε α} :
    (get >>= f).Ends h r h' ↔ (f h).Ends h r h' := by
  rw [ends_bind]
  constructor
  · rintro (⟨e, he, -⟩ | ⟨h₀, h₁, hget, hf⟩)
    · exact absurd (ends_get.mp he).1 (by simp)
    · obtain ⟨hh, rfl⟩ := ends_get.mp hget
      cases hh
      exact hf
  · exact fun hf => Or.inr ⟨h, h, ends_get.mpr ⟨rfl, rfl⟩, hf⟩

/-- What follows a step that cannot fail begins where that ends. -/
lemma ends_lift_bind {m : Act α} {f : α → Attempt ε β} {r : Except ε β} :
    ((liftM m : Attempt ε α) >>= f).Ends h r h' ↔ (f (m.run h).1).Ends (m.run h).2 r h' := by
  rw [ends_bind]
  constructor
  · rintro (⟨e, he, -⟩ | ⟨a, h₁, hm, hf⟩)
    · exact absurd (ends_lift.mp he).1 (by simp)
    · obtain ⟨ha, rfl⟩ := ends_lift.mp hm
      cases ha
      exact hf
  · exact fun hf => Or.inr ⟨_, _, ends_lift.mpr ⟨rfl, rfl⟩, hf⟩

/-- Behind an error nothing is done. -/
lemma ends_throw_bind {e : ε} {f : α → Attempt ε β} {r : Except ε β} :
    ((throw e : Attempt ε α) >>= f).Ends h r h' ↔ r = .error e ∧ h' = h := by
  rw [ends_bind]
  constructor
  · rintro (⟨e', he, rfl⟩ | ⟨a, h₁, he, -⟩)
    · obtain ⟨he', rfl⟩ := ends_throw.mp he
      cases he'
      exact ⟨rfl, rfl⟩
    · exact absurd (ends_throw.mp he).1 (by simp)
  · rintro ⟨rfl, rfl⟩
    exact Or.inl ⟨e, ends_throw.mpr ⟨rfl, rfl⟩, rfl⟩

/-- An attempt whose errors are put into other words ends as before. -/
lemma ends_adapt {m : Attempt ε α} {f : ε → ε'} {r : Except ε' α} :
    Ends (m.adapt f) h r h' ↔ ∃ r₀, m.Ends h r₀ h' ∧ r = r₀.mapError f := by
  obtain ⟨r₀, h₀, hm⟩ := exists_ends m h
  have hrun : Ends (m.adapt f) h (r₀.mapError f) h₀ := by
    have hm' : m.run.run h = (r₀, h₀) := hm
    rw [Ends, ExceptT.run_adapt, StateT.run_map, hm']
    rfl
  constructor
  · intro he
    obtain ⟨rfl, rfl⟩ := hrun.unique he
    exact ⟨r₀, hm, rfl⟩
  · rintro ⟨r₁, he, rfl⟩
    obtain ⟨rfl, rfl⟩ := hm.unique he
    exact hrun

/-- An operation on files is done, or it is refused and nothing happens. -/
lemma ends_onFiles {f : FileTree → Except OsError FileTree} {g : OsError → ε}
    {r : Except ε Unit} :
    Ends ((onFiles f).adapt g) h r h'
      ↔ (∃ t, f h.files = .ok t ∧ r = .ok () ∧ h' = { h with files := t })
        ∨ ∃ x, f h.files = .error x ∧ r = .error (g x) ∧ h' = h := by
  rw [ends_adapt]
  simp only [onFiles, ends_get_bind]
  cases f h.files with
  | ok t => simp [ends_modify, Except.mapError, and_comm]
  | error x => simp [ends_throw, Except.mapError, and_comm]

/-- A list is gone through from its front. -/
lemma filterM_cons (f : α → Attempt ε Bool) (x : α) (xs : List α) :
    (x :: xs).filterM f = (do
      let b ← f x
      let ys ← xs.filterM f
      pure (if b then x :: ys else ys)) := by
  have hacc : ∀ xs acc : List α,
      List.filterAuxM f xs acc = (do pure ((← List.filterAuxM f xs []) ++ acc)) := by
    intro xs
    induction xs with
    | nil => exact fun acc => by simp [List.filterAuxM]
    | cons x xs ih =>
        intro acc
        simp only [List.filterAuxM, bind_assoc]
        refine bind_congr fun b => ?_
        rw [ih, ih (cond b [x] [])]
        cases b <;> simp
  simp only [List.filterM, List.filterAuxM, bind_assoc]
  refine bind_congr fun b => ?_
  rw [hacc]
  cases b <;> simp

/-! ### Errors -/

/-- The attempt fails with such errors only. -/
def Raises (m : Attempt ε α) (P : ε → Prop) : Prop :=
  ∀ ⦃h e h'⦄, m.Ends h (.error e) h' → P e

variable {P : ε → Prop}

lemma raises_pure (a : α) : (pure a : Attempt ε α).Raises P := by
  intro h e h' he
  exact absurd (ends_pure.mp he).1 (by simp)

/-- A step that cannot fail has no errors. -/
lemma raises_lift (m : Act α) : (liftM m : Attempt ε α).Raises P := by
  intro h e h' he
  exact absurd (ends_lift.mp he).1 (by simp)

lemma Raises.bind {m : Attempt ε α} (hm : m.Raises P) {f : α → Attempt ε β}
    (hf : ∀ a, (f a).Raises P) : (m >>= f).Raises P := by
  intro h e h' he
  rcases ends_bind_error.mp he with hm' | ⟨a, h₁, -, hf'⟩
  · exact hm hm'
  · exact hf a hf'

lemma raises_forM {xs : List α} {f : α → Attempt ε PUnit} (hf : ∀ x, (f x).Raises P) :
    (xs.forM f).Raises P := by
  induction xs with
  | nil => exact raises_pure _
  | cons x xs ih => exact (hf x).bind fun _ => ih

lemma raises_filterM {xs : List α} {f : α → Attempt ε Bool} (hf : ∀ x, (f x).Raises P) :
    (xs.filterM f).Raises P := by
  induction xs with
  | nil => exact raises_pure []
  | cons x xs ih =>
      rw [filterM_cons]
      exact (hf x).bind fun _ => ih.bind fun _ => raises_pure _

/-! ### From the first host to the last one -/

/-- Wherever the attempt ends, the relation holds between the host that it begins on and the one
that it ends on. -/
def Within (m : Attempt ε α) (R : Host → Host → Prop) : Prop :=
  ∀ ⦃h r h'⦄, m.Ends h r h' → R h h'

variable {R : Host → Host → Prop} {m : Attempt ε α}

lemma within_ite {p : Prop} [Decidable p] {m' : Attempt ε α} (hm : m.Within R)
    (hm' : m'.Within R) : (if p then m else m').Within R := by
  split_ifs
  · exact hm
  · exact hm'

/-- A step that cannot fail is within a relation that holds wherever it leads. -/
lemma within_modify {f : Host → Host} (hf : ∀ h, R h (f h)) :
    (modify f : Attempt ε Unit).Within R := by
  intro h r h' he
  obtain ⟨-, rfl⟩ := ends_modify.mp he
  exact hf h

variable [IsPreorder Host R]

lemma within_pure (a : α) : (pure a : Attempt ε α).Within R := by
  intro h r h' he
  obtain ⟨-, rfl⟩ := ends_pure.mp he
  exact refl_of R h'

lemma within_throw (e : ε) : (throw e : Attempt ε α).Within R := by
  intro h r h' he
  obtain ⟨-, rfl⟩ := ends_throw.mp he
  exact refl_of R h'

lemma within_get : (get : Attempt ε Host).Within R := by
  intro h r h' he
  obtain ⟨-, rfl⟩ := ends_get.mp he
  exact refl_of R h'

/-- What fails or not without a look at the host does nothing to it. -/
lemma within_liftExcept (x : Except ε α) : (liftM x : Attempt ε α).Within R := by
  intro h r h' he
  obtain ⟨-, rfl⟩ := ends_liftExcept.mp he
  exact refl_of R h'

lemma Within.bind (hm : m.Within R) {f : α → Attempt ε β} (hf : ∀ a, (f a).Within R) :
    (m >>= f).Within R := by
  intro h r h' he
  rcases ends_bind.mp he with ⟨e, hm', -⟩ | ⟨a, h₁, hm', hf'⟩
  · exact hm hm'
  · exact trans_of R (hm hm') (hf a hf')

lemma within_forM {xs : List α} {f : α → Attempt ε PUnit} (hf : ∀ x ∈ xs, (f x).Within R) :
    (xs.forM f).Within R := by
  induction xs with
  | nil => exact within_pure _
  | cons x xs ih =>
      exact (hf x List.mem_cons_self).bind
        fun _ => ih fun y hy => hf y (List.mem_cons_of_mem x hy)

lemma within_filterM {xs : List α} {f : α → Attempt ε Bool} (hf : ∀ x, (f x).Within R) :
    (xs.filterM f).Within R := by
  induction xs with
  | nil => exact within_pure []
  | cons x xs ih =>
      rw [filterM_cons]
      exact (hf x).bind fun _ => ih.bind fun _ => within_pure _

end Attempt

end ProcUnits.Host
