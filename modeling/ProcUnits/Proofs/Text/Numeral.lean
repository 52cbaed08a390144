import Mathlib.Tactic.Common
import ProcUnits.Text.Numeral

/-!
Numerals and the numbers they are read as.

* `Numeral.IsDecimal`: decimal digits, and the number that they make. Of a number there is such a
  text (`isDecimal_repr`);
* `magnitude_eq_ok_iff`: digits are read as the number that they make, if that is in the range;
* `word32?_eq_some_iff`: what is read as a number without a sign of its own are digits, perhaps with
  a plus sign in front.
-/

namespace ProcUnits.Text.Numeral

variable {s ds : List Char} {n m limit : ℕ} {c : Char}

/-- The characters are decimal digits, at least one, and make the number. -/
structure IsDecimal (ds : List Char) (n : ℕ) : Prop where
  ne_nil : ds ≠ []
  isDigit : ∀ c ∈ ds, c.isDigit = true
  value_eq : Nat.ofDigitChars 10 ds 0 = n

/-- The text of a number is made of its digits. -/
lemma isDecimal_repr (n : ℕ) : IsDecimal n.repr.toList n := by
  rw [Nat.toList_repr]
  refine ⟨?_, fun c hc => ?_, Nat.ofDigitChars_toDigits (by decide) (by decide)⟩
  · exact Nat.toDigits_ne_nil
  · exact Nat.isDigit_of_mem_toDigits (by decide) (by decide) hc

/-! ### Digits -/

lemma digitValue_of_isDigit (hc : c.isDigit = true) :
    digitValue 10 c = some (c.toNat - '0'.toNat) := by
  obtain ⟨hlow, hhigh⟩ := Char.isDigit_iff_toNat.mp hc
  have hrange : '0' ≤ c ∧ c ≤ '9' := ⟨hlow, hhigh⟩
  have hless : c.toNat - '0'.toNat < 10 := by
    have hnine : '9'.toNat = '0'.toNat + 9 := rfl
    omega
  rw [digitValue, if_pos hrange]
  simpa using hless

lemma isDigit_of_digitValue {v : ℕ} (h : digitValue 10 c = some v) : c.isDigit = true := by
  by_contra hc
  have hrange : ¬ ('0' ≤ c ∧ c ≤ '9') := fun hr => hc (Char.isDigit_iff_toNat.mpr hr)
  rw [digitValue, if_neg hrange, Option.filter_eq_some_iff] at h
  obtain ⟨hv, hless⟩ := h
  have hless : v < 10 := by simpa using hless
  split_ifs at hv <;> cases hv <;> omega

/-- More digits do not make a smaller number. -/
lemma le_ofDigitChars (ds : List Char) (n : ℕ) : n ≤ Nat.ofDigitChars 10 ds n := by
  induction ds generalizing n with
  | nil => exact Nat.le_refl n
  | cons c ds ih =>
      rw [Nat.ofDigitChars_cons]
      calc n ≤ 10 * n + (c.toNat - '0'.toNat) := by omega
        _ ≤ _ := ih _

/-- Digits are read as the number that they make, if that does not go over the limit. The digits
before them have made the number `n`. -/
lemma magnitude_eq_ok_iff {excess : Fault} (hn : n ≤ limit) :
    magnitude 10 limit excess n ds = .ok m
      ↔ (∀ c ∈ ds, c.isDigit = true) ∧ Nat.ofDigitChars 10 ds n = m ∧ m ≤ limit := by
  induction ds generalizing n with
  | nil =>
      simp only [magnitude, Nat.ofDigitChars_nil, Except.ok.injEq, List.not_mem_nil,
        false_implies, implies_true, true_and]
      constructor
      · rintro rfl
        exact ⟨rfl, hn⟩
      · exact And.left
  | cons c ds ih =>
      rw [magnitude, List.forall_mem_cons, Nat.ofDigitChars_cons]
      cases hc : digitValue 10 c with
      | none =>
          have hdigit : c.isDigit ≠ true := fun hd => by
            rw [digitValue_of_isDigit hd] at hc
            cases hc
          simp [hdigit]
      | some v =>
          have hdigit := isDigit_of_digitValue hc
          rw [digitValue_of_isDigit hdigit, Option.some.injEq] at hc
          simp only [hdigit, true_and, hc, Nat.mul_comm 10 n]
          split_ifs with hover
          · -- no digits behind bring the number back under the limit
            have hle := le_ofDigitChars ds (n * 10 + v)
            simp only [false_iff, not_and]
            rintro - rfl
            omega
          · exact ih (by omega)

/-! ### Numerals -/

/-- A text without a sign is read as the number that its digits make. -/
lemma toOption_magnitude_eq_some_iff (hne : ds ≠ []) :
    (((magnitude 10 0xFFFFFFFF .tooLarge 0 ds).map Int.ofNat).map Int.toNat).toOption = some n
      ↔ n ≤ 0xFFFFFFFF ∧ IsDecimal ds n := by
  have hread : (((magnitude 10 0xFFFFFFFF .tooLarge 0 ds).map Int.ofNat).map Int.toNat).toOption
      = some n ↔ magnitude 10 0xFFFFFFFF .tooLarge 0 ds = .ok n := by
    cases magnitude 10 0xFFFFFFFF .tooLarge 0 ds <;> simp [Except.map, Except.toOption]
  rw [hread, magnitude_eq_ok_iff (Nat.zero_le _)]
  constructor
  · rintro ⟨hdigit, hvalue, hle⟩
    exact ⟨hle, hne, hdigit, hvalue⟩
  · rintro ⟨hle, -, hdigit, hvalue⟩
    exact ⟨hdigit, hvalue, hle⟩

/-- Digits are no signs. -/
lemma IsDecimal.head_ne (h : IsDecimal (c :: ds) n) : c ≠ '+' ∧ c ≠ '-' := by
  have hdigit := h.isDigit c List.mem_cons_self
  constructor <;> rintro rfl <;> exact absurd hdigit (by decide)

/-- What is read as a number without a sign are digits that make it, perhaps with a plus sign in
front of them. -/
theorem word32?_eq_some_iff :
    word32? 10 s = some n
      ↔ n ≤ 0xFFFFFFFF ∧ ∃ ds, IsDecimal ds n ∧ (s = ds ∨ s = '+' :: ds) := by
  unfold word32? word32 read
  split
  · -- nothing is no number
    refine iff_of_false (by simp [Except.map, Except.toOption]) ?_
    rintro ⟨-, ds, hds, rfl | h⟩
    · exact hds.ne_nil rfl
    · cases h
  · -- neither is a sign alone
    refine iff_of_false (by simp [Except.map, Except.toOption]) ?_
    rintro ⟨-, ds, hds, rfl | h⟩
    · exact hds.head_ne.1 rfl
    · cases h
      exact hds.ne_nil rfl
  · refine iff_of_false (by simp [Except.map, Except.toOption]) ?_
    rintro ⟨-, ds, hds, rfl | h⟩
    · exact hds.head_ne.2 rfl
    · cases h
  · next r hr =>
      rw [toOption_magnitude_eq_some_iff hr]
      refine and_congr_right fun _ => ⟨fun h => ⟨r, h, Or.inr rfl⟩, ?_⟩
      rintro ⟨ds, hds, rfl | h⟩
      · exact absurd rfl hds.head_ne.1
      · cases h
        exact hds
  · refine iff_of_false (by simp [Except.map, Except.toOption]) ?_
    rintro ⟨-, ds, hds, rfl | h⟩
    · exact hds.head_ne.2 rfl
    · cases h
  · next hnil _ _ hplus _ =>
      rw [toOption_magnitude_eq_some_iff hnil]
      refine and_congr_right fun _ => ⟨fun h => ⟨s, h, Or.inl rfl⟩, ?_⟩
      rintro ⟨ds, hds, rfl | h⟩
      · exact hds
      · exact absurd h (hplus ds)

end ProcUnits.Text.Numeral
