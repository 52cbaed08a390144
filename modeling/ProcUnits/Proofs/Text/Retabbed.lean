import Mathlib.Data.List.Forall2
import ProcUnits.Proofs.Text.Trim
import ProcUnits.Proofs.Text.Words

/-!
Texts in which spaces and tabs stand for each other.

Both are blank, so whatever asks no more of a character than whether it is blank does the same with
such texts.

* `Retabbed`: the texts have the same characters, up to spaces and tabs;
* `Retabbed.eq_of_blankless`: without blanks they are the same;
* `Retabbed.trim`, `Retabbed.cutAt`, `Retabbed.splitAtPair`: what they are trimmed to and the pieces
  that they are cut into at other marks are related in the same way;
* `Retabbed.words_eq`: their words are the same.
-/

namespace ProcUnits.Text

/-- A space or a tab. -/
def IsSpacing (c : Char) : Prop := c = ' ' ∨ c = '\t'

instance (c : Char) : Decidable (IsSpacing c) := inferInstanceAs (Decidable (_ ∨ _))

/-- The characters are the same, or stand for each other. -/
def SameMark (c d : Char) : Prop := c = d ∨ (IsSpacing c ∧ IsSpacing d)

instance (c d : Char) : Decidable (SameMark c d) := inferInstanceAs (Decidable (_ ∨ _))

/-- The texts differ in spaces and tabs alone, which stand for each other. -/
abbrev Retabbed : List Char → List Char → Prop := List.Forall₂ SameMark

variable {c d : Char} {s t : List Char}

lemma isBlank_of_isSpacing (h : IsSpacing c) : isBlank c = true := by
  rcases h with rfl | rfl <;> decide

namespace SameMark

lemma symm (h : SameMark c d) : SameMark d c := h.imp Eq.symm And.symm

lemma isBlank_eq (h : SameMark c d) : isBlank c = isBlank d := by
  rcases h with rfl | ⟨hc, hd⟩
  · rfl
  · rw [isBlank_of_isSpacing hc, isBlank_of_isSpacing hd]

lemma eq_of_not_isSpacing (h : SameMark c d) (hc : ¬ IsSpacing c) : c = d :=
  h.resolve_right fun hspacing => hc hspacing.1

lemma eq_of_isBlank (h : SameMark c d) (hc : isBlank c = false) : c = d :=
  h.eq_of_not_isSpacing fun hspacing => by simp [isBlank_of_isSpacing hspacing] at hc

/-- Another mark is the same in both places. -/
lemma eq_iff (h : SameMark c d) {m : Char} (hm : ¬ IsSpacing m) : c = m ↔ d = m := by
  constructor
  · rintro rfl
    exact (h.eq_of_not_isSpacing hm).symm
  · rintro rfl
    exact (h.symm.eq_of_not_isSpacing hm).symm

end SameMark

namespace Retabbed

lemma symm (h : Retabbed s t) : Retabbed t s := by
  induction h with
  | nil => exact .nil
  | cons hcd _ ih => exact .cons hcd.symm ih

lemma eq_nil_iff (h : Retabbed s t) : s = [] ↔ t = [] := by
  cases h <;> simp

/-- Texts without blanks are the same. -/
lemma eq_of_blankless (h : Retabbed s t) (hs : ∀ c ∈ s, isBlank c = false) : s = t := by
  induction h with
  | nil => rfl
  | cons hcd _ ih =>
      obtain ⟨hc, hs⟩ := List.forall_mem_cons.mp hs
      rw [hcd.eq_of_isBlank hc, ih hs]

/-! ### Ends -/

lemma trimStart (h : Retabbed s t) : Retabbed (trimStart s) (trimStart t) := by
  induction h with
  | nil => exact .nil
  | @cons c d s t hcd hst ih =>
      simp only [Text.trimStart, List.dropWhile_cons, ← hcd.isBlank_eq]
      split_ifs
      · exact ih
      · exact .cons hcd hst

lemma trimEnd (h : Retabbed s t) : Retabbed (trimEnd s) (trimEnd t) := by
  induction h with
  | nil => exact .nil
  | @cons c d s t hcd hst ih =>
      by_cases hs : Text.trimEnd s = []
      · rw [trimEnd_cons_of_eq_nil c hs, trimEnd_cons_of_eq_nil d (ih.eq_nil_iff.mp hs),
          hcd.isBlank_eq]
        split_ifs
        · exact .nil
        · exact .cons hcd .nil
      · rw [trimEnd_cons_of_ne_nil c hs,
          trimEnd_cons_of_ne_nil d fun ht => hs (ih.eq_nil_iff.mpr ht)]
        exact .cons hcd ih

lemma trim (h : Retabbed s t) : Retabbed (trim s) (trim t) := h.trimStart.trimEnd

/-! ### Pieces -/

/-- At another mark both are cut or none is. -/
lemma cutAt {m : Char} (hm : ¬ IsSpacing m) (h : Retabbed s t) {a b : List Char}
    (hcut : cutAt m s = some (a, b)) :
    ∃ a' b', Text.cutAt m t = some (a', b') ∧ Retabbed a a' ∧ Retabbed b b' := by
  induction h generalizing a with
  | nil => cases hcut
  | @cons c d s t hcd hst ih =>
      rw [Text.cutAt] at hcut ⊢
      by_cases hc : c = m
      · rw [if_pos hc] at hcut
        obtain ⟨rfl, rfl⟩ := Prod.mk.inj (Option.some.inj hcut)
        exact ⟨[], t, by rw [if_pos ((hcd.eq_iff hm).mp hc)], .nil, hst⟩
      · rw [if_neg hc, Option.map_eq_some_iff] at hcut
        obtain ⟨⟨x, y⟩, hxy, heq⟩ := hcut
        obtain ⟨rfl, rfl⟩ := Prod.mk.inj heq
        obtain ⟨x', y', hcut', hx, hy⟩ := ih hxy
        have hd : ¬ d = m := (hcd.eq_iff hm).not.mp hc
        exact ⟨d :: x', y', by rw [if_neg hd, hcut']; rfl, .cons hcd hx, hy⟩

lemma extendHead {ps qs : List (List Char)} (hcd : SameMark c d)
    (h : List.Forall₂ Retabbed ps qs) :
    List.Forall₂ Retabbed (extendHead c ps) (extendHead d qs) := by
  cases h with
  | nil => exact .cons (.cons hcd .nil) .nil
  | cons hp hps => exact .cons (.cons hcd hp) hps

/-- At pairs of another mark both are cut in the same places. -/
lemma splitAtPair {m : Char} (hm : ¬ IsSpacing m) (h : Retabbed s t) :
    List.Forall₂ Retabbed (splitAtPair m s) (splitAtPair m t) := by
  fun_induction Text.splitAtPair m s generalizing t with
  | case1 =>
      cases h
      exact .cons .nil .nil
  | case2 c =>
      obtain _ | ⟨hcd, _ | _⟩ := h
      exact .cons (.cons hcd .nil) .nil
  | case3 b r a hpair ih =>
      obtain _ | ⟨ha, _ | ⟨hb, hr⟩⟩ := h
      rw [Text.splitAtPair, if_pos ⟨(ha.eq_iff hm).mp hpair.1, (hb.eq_iff hm).mp hpair.2⟩]
      exact .cons .nil (ih hr)
  | case4 b r a hpair ih =>
      obtain _ | ⟨ha, _ | ⟨hb, hr⟩⟩ := h
      rw [Text.splitAtPair, if_neg (by rwa [← ha.eq_iff hm, ← hb.eq_iff hm])]
      exact extendHead ha (ih (.cons hb hr))

/-- Both have the same words. -/
lemma words_eq (h : Retabbed s t) : words s = words t := by
  fun_induction words s generalizing t with
  | case1 =>
      cases h
      rfl
  | case2 c hc =>
      obtain _ | ⟨hcd, _ | _⟩ := h
      rw [words, if_pos (hcd.isBlank_eq ▸ hc)]
  | case3 c hc =>
      obtain _ | ⟨hcd, _ | _⟩ := h
      rw [words, if_neg (hcd.isBlank_eq ▸ hc), hcd.eq_of_isBlank (by simpa using hc)]
  | case4 c d r hc ih =>
      obtain _ | ⟨hcc, _ | ⟨hdd, hr⟩⟩ := h
      rw [words, if_pos (hcc.isBlank_eq ▸ hc), ih (.cons hdd hr)]
  | case5 c d r hc hd ih =>
      obtain _ | ⟨hcc, _ | ⟨hdd, hr⟩⟩ := h
      rw [words, if_neg (hcc.isBlank_eq ▸ hc), if_pos (hdd.isBlank_eq ▸ hd), ih (.cons hdd hr),
        hcc.eq_of_isBlank (by simpa using hc)]
  | case6 c d r hc hd ih =>
      obtain _ | ⟨hcc, _ | ⟨hdd, hr⟩⟩ := h
      rw [words, if_neg (hcc.isBlank_eq ▸ hc), if_neg (hdd.isBlank_eq ▸ hd), ih (.cons hdd hr),
        hcc.eq_of_isBlank (by simpa using hc)]

end Retabbed

end ProcUnits.Text
