import Mathlib.Tactic.Common
import ProcUnits.Resolution

/-!
Texts and numbers from two sources, as the steps of section 4.4 of the specification take them.

* `Options.setText_firstText`: of two texts the first one that is set counts. One that is not empty
  counts as it stands (`Options.setText_of_ne`, `firstText_none`);
* `firstNumber_self`, `firstNumber_max`, `firstNumber_nonneg`: of two numbers the first one that is
  not zero.
-/

namespace ProcUnits

variable {o : Option String} {i j : Int}

/-! ### Texts -/

namespace Options

@[simp]
lemma setText_none : setText none = none := rfl

lemma setText_some (t : String) : setText (some t) = if t = "" then none else some t := by
  split_ifs with h <;> simp [setText, Option.filter, h]

lemma setText_of_ne (h : o ≠ some "") : setText o = o := by
  cases o with
  | none => rfl
  | some t =>
      have ht : t ≠ "" := fun heq => h (heq ▸ rfl)
      rw [setText_some, if_neg ht]

lemma setText_setText (o : Option String) : setText (setText o) = setText o := by
  simp [setText, Option.filter_filter]

lemma setText_firstText (own other : Option String) :
    setText (firstText own other) = (setText own).or (setText other) := by
  cases hown : setText own <;> simp [firstText, isTextSet, hown]

end Options

lemma firstText_none (h : o ≠ some "") : firstText o none = o := by
  cases o with
  | none => rfl
  | some t => simp [firstText, Options.isTextSet, Options.setText_of_ne h]

/-! ### Numbers -/

lemma firstNumber_zero_left (i : Int) : firstNumber 0 i = i := rfl

lemma firstNumber_self (i : Int) : firstNumber i i = i := by
  rw [firstNumber, ite_self]

lemma firstNumber_zero_right (i : Int) : firstNumber i 0 = i := by
  rw [firstNumber]
  split_ifs with h
  · exact h.symm
  · rfl

/-- A number that is written only where it is positive. -/
lemma firstNumber_max (i : Int) : firstNumber (max i 0) i = i := by
  rw [firstNumber]
  split_ifs with h
  · rfl
  · omega

lemma firstNumber_nonneg (hi : 0 ≤ i) (hj : 0 ≤ j) : 0 ≤ firstNumber i j := by
  rw [firstNumber]
  split_ifs
  · exact hj
  · exact hi

end ProcUnits
