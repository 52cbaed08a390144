import Mathlib.Tactic.Common
import ProcUnits.Proofs.Text.Numeral
import ProcUnits.Validation

/-!
Texts that pass a check hold no line feed.

* `break_not_mem_of_isName`, `break_not_mem_of_isSafePath`: names and paths are made of few
  characters;
* `break_not_mem_of_isKnownSignal`: a signal is a number or one of the known names;
* `break_not_mem_of_mem_killModes`: a way to kill is one of those listed.
-/

namespace ProcUnits.Validation

open Text

variable {s : String}

lemma break_not_mem_of_isName (h : isName s = true) : '\n' ∉ s.toList := by
  intro hmem
  rw [isName, Bool.and_eq_true, List.all_eq_true] at h
  exact absurd (h.2 _ hmem) (by decide)

lemma break_not_mem_of_isSafePath {base : String} (h : isSafePath base s = true) :
    '\n' ∉ s.toList := by
  intro hmem
  simp only [isSafePath, Bool.and_eq_true, List.all_eq_true] at h
  exact absurd (h.1.1.2 _ hmem) (by decide)

lemma break_not_mem_of_mem_killModes (h : killModes.contains s = true) : '\n' ∉ s.toList := by
  have hmodes : ∀ m ∈ killModes, '\n' ∉ m.toList := by decide +kernel
  exact hmodes s (List.contains_iff_mem.mp h)

/-! ### Signals -/

/-- Digits are no line feeds, and a sign is none. -/
lemma break_not_mem_of_word32? {n : ℕ} {cs : List Char} (h : Numeral.word32? 10 cs = some n) :
    '\n' ∉ cs := by
  obtain ⟨-, ds, hds, hcs⟩ := Numeral.word32?_eq_some_iff.mp h
  have hdigits : '\n' ∉ ds := fun hmem => absurd (hds.isDigit _ hmem) (by decide)
  rcases hcs with rfl | rfl
  · exact hdigits
  · rw [List.mem_cons, not_or]
    exact ⟨by decide, hdigits⟩

lemma break_not_mem_of_mem_signals (h : signals.contains s = true) : '\n' ∉ s.toList := by
  have hsignals : ∀ m ∈ signals, '\n' ∉ m.toList := by decide +kernel
  exact hsignals s (List.contains_iff_mem.mp h)

lemma eq_break_of_toUpper {c : Char} (h : c.toUpper = '\n') : c = '\n' := by
  unfold Char.toUpper at h
  split at h
  · next hc =>
      have hv := congrArg (fun d : Char => d.val.toNat) h
      simp only [UInt32.toNat_add, UInt32.le_iff_toNat_le] at hv hc
      simp at hv hc
      omega
  · exact h

/-- The case of letters does not matter to line feeds. -/
lemma break_mem_map_toUpper {cs : List Char} : '\n' ∈ cs.map Char.toUpper ↔ '\n' ∈ cs := by
  rw [List.mem_map]
  constructor
  · rintro ⟨c, hc, hupper⟩
    rwa [← eq_break_of_toUpper hupper]
  · exact fun h => ⟨'\n', h, by decide⟩

/-- A known signal is a number or one of the known names, in any case. -/
lemma break_not_mem_of_isKnownSignal (h : isKnownSignal s = true) : '\n' ∉ s.toList := by
  have hupper : (upper s).toList = s.toList.map Char.toUpper := String.toList_ofList
  rw [← break_mem_map_toUpper, ← hupper]
  unfold isKnownSignal at h
  split at h
  · next n hn =>
      rw [hupper, break_mem_map_toUpper]
      exact break_not_mem_of_word32? hn
  · split at h
    · next r hr =>
        have hname := break_not_mem_of_mem_signals h
        rw [String.toList_ofList] at hname
        rw [hr]
        simpa using hname
    · have hname := break_not_mem_of_mem_signals h
      rwa [String.toList_ofList] at hname

end ProcUnits.Validation
