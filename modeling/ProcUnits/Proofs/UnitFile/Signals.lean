import ProcUnits.Proofs.Text.Numeral
import ProcUnits.UnitFile.Systemd
import ProcUnits.Validation

/-!
How accepted signals are written. The vocabulary is that of section C.6 of the specification.

A signal is accepted by its number or by its name, and is written with `SIG` in front of anything
that is not made of digits.

* `IsProperSignal`: what the init system takes for a signal;
* `cases_of_isKnownSignal`: what an accepted signal looks like;
* `signalName_of_isDecimal`, `signalName_of_plus`, `signalName_of_upper`: how each of the forms is
  written;
* `isProperSignal_signalName_iff`: an accepted signal is written as a proper one unless a plus sign
  stands in front of its number.
-/

namespace ProcUnits.UnitFile

open Systemd (signalName)
open Text.Numeral (IsDecimal)
open Validation (isKnownSignal maxSignal signals upper)

variable {s name : String} {ds : List Char} {n : ℕ} {c : Char}

/-- What the init system takes for a signal: digits that make a number from 1 to 64, or `SIG` and
the name of a signal behind it. -/
def IsProperSignal (t : String) : Prop :=
  (∃ n, IsDecimal t.toList n ∧ 1 ≤ n ∧ n ≤ maxSignal) ∨ ∃ name ∈ signals, t = "SIG" ++ name

/-! ### Accepted signals -/

/-- A signal is accepted for a number in the range, a plus sign in front of it or not, or for a
name, `SIG` in front of it or not. -/
lemma cases_of_isKnownSignal (h : isKnownSignal s = true) :
    (∃ ds n, IsDecimal ds n ∧ 1 ≤ n ∧ n ≤ maxSignal ∧ (s.toList = ds ∨ s.toList = '+' :: ds))
      ∨ ∃ name ∈ signals, upper s = name ∨ upper s = "SIG" ++ name := by
  unfold isKnownSignal at h
  split at h
  · next n hn =>
      obtain ⟨-, ds, hds, hs⟩ := Text.Numeral.word32?_eq_some_iff.mp hn
      simp only [Bool.and_eq_true, decide_eq_true_eq] at h
      exact Or.inl ⟨ds, n, hds, h.1, h.2, hs⟩
  · right
    split at h
    · next r hr =>
        refine ⟨String.ofList r, List.contains_iff_mem.mp h, Or.inr ?_⟩
        rw [← String.toList_inj, String.toList_append, String.toList_ofList (l := r), hr]
        rfl
    · rw [String.ofList_toList] at h
      exact ⟨upper s, List.contains_iff_mem.mp h, Or.inl rfl⟩

/-! ### How signals are written -/

/-- The signal is written as it is, in upper case. -/
def IsWritten (t : String) : Prop := "SIG".toList <+: t.toList ∨ ∀ c ∈ t.toList, c.isDigit = true

lemma isWritten_iff {t : String} :
    IsWritten t ↔ ("SIG".toList.isPrefixOf t.toList || t.toList.all Char.isDigit) = true := by
  rw [IsWritten, Bool.or_eq_true, List.isPrefixOf_iff_prefix, List.all_eq_true]

lemma signalName_of_isWritten (h : IsWritten (upper s)) : signalName s = upper s := by
  have hupper : (upper s).toList = s.toList.map Char.toUpper := String.toList_ofList
  rw [isWritten_iff, hupper] at h
  exact if_pos h

/-- All other ones get `SIG` in front. -/
lemma signalName_of_not_isWritten (h : ¬ IsWritten (upper s)) :
    signalName s = "SIG" ++ upper s := by
  have hupper : (upper s).toList = s.toList.map Char.toUpper := String.toList_ofList
  rw [isWritten_iff, hupper] at h
  exact if_neg h

/-- What stands in front of the small letters has no case. -/
lemma toUpper_of_lt (hc : c < 'a') : c.toUpper = c := by
  unfold Char.toUpper
  rw [dif_neg]
  exact fun hlower => absurd hlower.1 (UInt32.not_le.mpr hc)

lemma map_toUpper_of_isDecimal (h : IsDecimal ds n) : ds.map Char.toUpper = ds := by
  have hupper : ∀ c ∈ ds, c.toUpper = c := by
    intro c hc
    have hhigh := (Char.isDigit_iff_toNat.mp (h.isDigit c hc)).2
    have hless : c.toNat < 'a'.toNat := Nat.lt_of_le_of_lt hhigh (by decide)
    exact toUpper_of_lt (UInt32.lt_iff_toNat_lt.mpr hless)
  rw [List.map_congr_left hupper, List.map_id']

/-- A number is written as it is. -/
lemma signalName_of_isDecimal (h : IsDecimal s.toList n) : signalName s = s := by
  have hupper : upper s = s := by rw [upper, map_toUpper_of_isDecimal h, String.ofList_toList]
  rw [signalName_of_isWritten (hupper.symm ▸ Or.inr h.isDigit), hupper]

/-- A number behind a plus sign is taken for a name. -/
lemma signalName_of_plus (h : s.toList = '+' :: ds) (hds : IsDecimal ds n) :
    signalName s = "SIG" ++ s := by
  have hupper : upper s = s := by
    rw [upper, h, List.map_cons, map_toUpper_of_isDecimal hds, toUpper_of_lt (by decide), ← h,
      String.ofList_toList]
  have hnot : ¬ IsWritten s := by
    rw [IsWritten, h, List.forall_mem_cons, not_or]
    refine ⟨fun hsig => ?_, fun hdigits => absurd hdigits.1 (by decide)⟩
    exact absurd (List.cons_prefix_cons.mp hsig).1 (by decide)
  rw [signalName_of_not_isWritten (hupper.symm ▸ hnot), hupper]

/-- No name of a signal begins with `SIG`, and none is made of digits. -/
lemma not_isWritten_of_mem_signals (h : name ∈ signals) : ¬ IsWritten name := by
  have hall : (signals.all fun m =>
      !("SIG".toList.isPrefixOf m.toList || m.toList.all Char.isDigit)) = true := by
    decide +kernel
  have hname := List.all_eq_true.mp hall name h
  rwa [Bool.not_eq_true', ← Bool.not_eq_true, ← isWritten_iff] at hname

/-- A name is written in upper case behind `SIG`. -/
lemma signalName_of_upper (hname : name ∈ signals)
    (h : upper s = name ∨ upper s = "SIG" ++ name) : signalName s = "SIG" ++ name := by
  rcases h with h | h
  · rw [signalName_of_not_isWritten (h ▸ not_isWritten_of_mem_signals hname), h]
  · have hwritten : IsWritten (upper s) := by
      rw [h, IsWritten, String.toList_append]
      exact Or.inl (List.prefix_append _ _)
    rw [signalName_of_isWritten hwritten, h]

/-! ### Plus signs -/

/-- No name of a signal starts with a plus sign. -/
lemma head?_ne_of_mem_signals (h : name ∈ signals) : name.toList.head? ≠ some '+' := by
  have hall : ∀ m ∈ signals, m.toList.head? ≠ some '+' := by decide +kernel
  exact hall name h

/-- Neither does what is accepted for a name. -/
lemma head?_ne_of_upper (hname : name ∈ signals)
    (h : upper s = name ∨ upper s = "SIG" ++ name) : s.toList.head? ≠ some '+' := by
  intro hhead
  have hplus : (upper s).toList.head? = some '+' := by
    rw [upper, String.toList_ofList, List.head?_map, hhead, Option.map_some,
      toUpper_of_lt (by decide)]
  rcases h with h | h
  · exact head?_ne_of_mem_signals hname (h ▸ hplus)
  · rw [h, String.toList_append, List.head?_append] at hplus
    cases hplus

/-- Nothing that starts with `SIG+` is a proper signal. -/
lemma not_isProperSignal_plus (h : s.toList.head? = some '+') : ¬ IsProperSignal ("SIG" ++ s) := by
  rintro (⟨n, hdecimal, -⟩ | ⟨name, hname, heq⟩)
  · have hdigit := hdecimal.isDigit 'S' (by simp)
    exact absurd hdigit (by decide)
  · have hs : s = name := by
      rw [← String.toList_inj, String.toList_append, String.toList_append] at heq
      exact String.toList_inj.mp (List.append_cancel_left heq)
    exact head?_ne_of_mem_signals hname (hs ▸ h)

/-- An accepted signal is written as a proper one just if no plus sign stands in front of it. With
the sign it is a number, and is written as a name that no signal has. -/
theorem isProperSignal_signalName_iff (h : isKnownSignal s = true) :
    (IsProperSignal (signalName s) ↔ s.toList.head? ≠ some '+')
      ∧ (s.toList.head? = some '+' → (∃ ds n, s.toList = '+' :: ds ∧ IsDecimal ds n
        ∧ 1 ≤ n ∧ n ≤ maxSignal) ∧ signalName s = "SIG" ++ s) := by
  rcases cases_of_isKnownSignal h with ⟨ds, n, hds, hlow, hhigh, hs | hs⟩ | ⟨name, hname, hupper⟩
  · -- digits
    rw [← hs] at hds
    have hhead : s.toList.head? ≠ some '+' := by
      intro hhead
      obtain ⟨cs, hcs⟩ := List.head?_eq_some_iff.mp hhead
      rw [hcs] at hds
      exact hds.head_ne.1 rfl
    refine ⟨iff_of_true (Or.inl ⟨n, ?_, hlow, hhigh⟩) hhead, fun hplus => absurd hplus hhead⟩
    rwa [signalName_of_isDecimal hds]
  · -- digits behind a plus sign
    have hhead : s.toList.head? = some '+' := by rw [hs]; rfl
    have hwritten := signalName_of_plus hs hds
    refine ⟨iff_of_false ?_ (not_not.mpr hhead), fun _ => ⟨⟨ds, n, hs, hds, hlow, hhigh⟩, hwritten⟩⟩
    rw [hwritten]
    exact not_isProperSignal_plus hhead
  · -- a name
    have hhead := head?_ne_of_upper hname hupper
    refine ⟨iff_of_true (Or.inr ⟨name, hname, ?_⟩) hhead, fun hplus => absurd hplus hhead⟩
    exact signalName_of_upper hname hupper

/-- The ninth signal is accepted with a plus sign in front of its number, and is written as if it
were called `+9`. -/
theorem isProperSignal_signalName_iff_plusNine :
    isKnownSignal "+9" = true ∧ signalName "+9" = "SIG+9" ∧ ¬ IsProperSignal (signalName "+9") := by
  have hknown : isKnownSignal "+9" = true := by decide +kernel
  obtain ⟨hproper, hwritten⟩ := isProperSignal_signalName_iff hknown
  have hhead : "+9".toList.head? = some '+' := by decide +kernel
  exact ⟨hknown, (hwritten hhead).2, fun h => hproper.mp h hhead⟩

end ProcUnits.UnitFile
