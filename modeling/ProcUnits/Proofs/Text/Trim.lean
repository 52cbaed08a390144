import Mathlib.Data.List.TakeWhile
import Mathlib.Tactic.Common
import ProcUnits.Proofs.Text.Split
import ProcUnits.Text.Blank

/-!
The ends of texts and of lines.

* `IsTrimmed`, `trim_eq_iff`: a text is trimmed to the part of it that starts and ends without a
  blank and has nothing but blanks around it;
* `map_trim_splitAtPair`: blanks in front of a text are blanks in front of its first piece;
* `map_trim_splitAt_break`: up to blanks at their ends, the lines of a text are its pieces between
  line feeds.
-/

namespace ProcUnits.Text

variable {b r s t : List Char} {c d : Char}

/-! ### Blanks at the ends -/

/-- There are nothing but blanks in the text. -/
def AllBlank (s : List Char) : Prop := ∀ c ∈ s, isBlank c = true

lemma allBlank_append_iff : AllBlank (s ++ t) ↔ AllBlank s ∧ AllBlank t :=
  List.forall_mem_append

lemma allBlank_nil : AllBlank [] := fun _ hc => absurd hc List.not_mem_nil

lemma trimStart_append (hb : AllBlank b) (s : List Char) : trimStart (b ++ s) = trimStart s := by
  rw [trimStart, trimStart, List.dropWhile_append, List.dropWhile_eq_nil_iff.mpr hb]
  rfl

/-- Nothing is missing of a text that starts without a blank. -/
lemma trimStart_append_of_head? (hne : t ≠ []) (ht : ∀ c ∈ t.head?, isBlank c = false)
    (s : List Char) : trimStart (t ++ s) = t ++ s := by
  obtain ⟨c, r, rfl⟩ := List.exists_cons_of_ne_nil hne
  have hc : isBlank c = false := ht c rfl
  rw [List.cons_append, trimStart, List.dropWhile_cons_of_neg (by simp [hc])]

lemma trimEnd_cons_of_ne_nil (c : Char) (h : trimEnd r ≠ []) :
    trimEnd (c :: r) = c :: trimEnd r := by
  rw [trimEnd]
  split
  · next hr => exact absurd hr h
  · rfl

lemma trimEnd_cons_of_eq_nil (c : Char) (h : trimEnd r = []) :
    trimEnd (c :: r) = if isBlank c then [] else [c] := by
  rw [trimEnd, h]

/-- What a text is trimmed to depends on what its rest is trimmed to. -/
lemma trimEnd_cons_congr (c : Char) (h : trimEnd r = trimEnd s) :
    trimEnd (c :: r) = trimEnd (c :: s) := by
  rw [trimEnd, h, trimEnd]

/-- The blanks at the end are all that is missing. -/
lemma exists_append_trimEnd (s : List Char) : ∃ b, AllBlank b ∧ s = trimEnd s ++ b := by
  induction s with
  | nil => exact ⟨[], allBlank_nil, rfl⟩
  | cons c r ih =>
      obtain ⟨b, hb, hr⟩ := ih
      by_cases hnil : trimEnd r = []
      · rw [hnil, List.nil_append] at hr
        rw [trimEnd_cons_of_eq_nil c hnil]
        split_ifs with hc
        · exact ⟨c :: r, List.forall_mem_cons.mpr ⟨hc, hr ▸ hb⟩, rfl⟩
        · exact ⟨r, hr ▸ hb, rfl⟩
      · rw [trimEnd_cons_of_ne_nil c hnil]
        exact ⟨b, hb, congrArg (c :: ·) hr⟩

lemma trimEnd_append (s : List Char) (hb : AllBlank b) : trimEnd (s ++ b) = trimEnd s := by
  induction s with
  | nil =>
      induction b with
      | nil => rfl
      | cons c b ih =>
          obtain ⟨hc, hb⟩ := List.forall_mem_cons.mp hb
          rw [List.nil_append] at ih ⊢
          rw [trimEnd_cons_of_eq_nil c (ih hb), if_pos hc, trimEnd]
  | cons c s ih => exact trimEnd_cons_congr c ih

/-- The text starts and ends without a blank. -/
structure IsTrimmed (t : List Char) : Prop where
  head : ∀ c ∈ t.head?, isBlank c = false
  last : ∀ c ∈ t.getLast?, isBlank c = false

lemma trimEnd_eq_self (h : ∀ c ∈ t.getLast?, isBlank c = false) : trimEnd t = t := by
  induction t with
  | nil => rfl
  | cons c r ih =>
      cases r with
      | nil =>
          have hc : isBlank c = false := h c rfl
          rw [trimEnd_cons_of_eq_nil c rfl, if_neg (by simp [hc])]
      | cons d r =>
          have hr := ih fun e he => h e (by rwa [List.getLast?_cons_cons])
          rw [trimEnd_cons_of_ne_nil c (by simp [hr]), hr]

lemma isBlank_getLast?_trimEnd (s : List Char) : ∀ c ∈ (trimEnd s).getLast?, isBlank c = false := by
  induction s with
  | nil => simp [trimEnd]
  | cons c r ih =>
      by_cases hnil : trimEnd r = []
      · rw [trimEnd_cons_of_eq_nil c hnil]
        split_ifs with hc
        · simp
        · simpa using hc
      · rw [trimEnd_cons_of_ne_nil c hnil, List.getLast?_cons_of_ne_nil hnil]
        exact ih

/-- A text is trimmed to what starts and ends without a blank and has blanks around it. -/
theorem trim_eq_iff : trim s = t
    ↔ IsTrimmed t ∧ ∃ front back, AllBlank front ∧ AllBlank back ∧ s = front ++ t ++ back := by
  constructor
  · rintro rfl
    obtain ⟨back, hback, heq⟩ := exists_append_trimEnd (trimStart s)
    have hfront : AllBlank (s.takeWhile isBlank) := fun c hc => List.mem_takeWhile_imp hc
    refine ⟨⟨fun c hc => ?_, isBlank_getLast?_trimEnd _⟩, s.takeWhile isBlank, back, hfront, hback,
      ?_⟩
    · -- the first character is that of the text without the blanks in front
      have hhead : (trimStart s).head? = some c := by
        rw [heq, List.head?_append, show (trimEnd (trimStart s)).head? = some c from hc]
        rfl
      have hnot := List.head?_dropWhile_not isBlank s
      rw [trimStart] at hhead
      rw [hhead] at hnot
      simpa using hnot
    · rw [List.append_assoc, trim, ← heq]
      exact List.takeWhile_append_dropWhile.symm
  · rintro ⟨⟨hhead, hlast⟩, front, back, hfront, hback, rfl⟩
    rw [trim, List.append_assoc, trimStart_append hfront]
    cases t with
    | nil =>
        rw [List.nil_append, trimStart, List.dropWhile_eq_nil_iff.mpr hback]
        rfl
    | cons c t =>
        rw [trimStart_append_of_head? (List.cons_ne_nil c t) hhead, trimEnd_append _ hback,
          trimEnd_eq_self hlast]

/-- Blanks at the front and at the end do not matter. -/
lemma trim_append (hb : AllBlank b) (s : List Char) (hr : AllBlank r) :
    trim (b ++ s ++ r) = trim s := by
  obtain ⟨ht, front, back, hfront, hback, hs⟩ := trim_eq_iff.mp (Eq.refl (trim s))
  refine trim_eq_iff.mpr ⟨ht, b ++ front, back ++ r, allBlank_append_iff.mpr ⟨hb, hfront⟩,
    allBlank_append_iff.mpr ⟨hback, hr⟩, ?_⟩
  conv_lhs => rw [hs]
  simp only [List.append_assoc]

lemma trim_append_left (hb : AllBlank b) (s : List Char) : trim (b ++ s) = trim s := by
  simpa using trim_append hb s allBlank_nil

lemma trim_trimEnd (s : List Char) : trim (trimEnd s) = trim s := by
  obtain ⟨b, hb, hs⟩ := exists_append_trimEnd s
  conv_rhs => rw [hs]
  simpa using (trim_append allBlank_nil (trimEnd s) hb).symm

/-! ### Pieces and lines -/

/-- Blanks in front of a text are blanks in front of its first piece. -/
lemma map_trim_splitAtPair (hd : isBlank d = false) (hb : AllBlank b) (s : List Char) :
    (splitAtPair d (b ++ s)).map trim = (splitAtPair d s).map trim := by
  induction b with
  | nil => rfl
  | cons c b ih =>
      obtain ⟨hc, hb⟩ := List.forall_mem_cons.mp hb
      have hcd : c ≠ d := fun heq => by simp [heq, hd] at hc
      have htrim (p : List Char) : trim (c :: p) = trim p :=
        trim_append_left (b := [c]) (by simpa [AllBlank] using hc) p
      obtain ⟨p, ps, hps⟩ := List.exists_cons_of_ne_nil (splitAtPair_ne_nil (d := d) (b ++ s))
      rw [← ih hb, List.cons_append, splitAtPair_cons_of_ne hcd, hps, extendHead, List.map_cons,
        List.map_cons, htrim]

/-- Up to blanks at their ends, the lines of a text are its pieces between line feeds. If it ends
with a break, there is an empty piece more. -/
lemma map_trimEnd_splitAt_break (s : List Char) : ∃ rest, (rest = [] ∨ rest = [[]])
    ∧ (splitAt '\n' s).map trimEnd = (lines s).map trimEnd ++ rest := by
  fun_induction lines s with
  | case1 => exact ⟨[[]], Or.inr rfl, rfl⟩
  | case2 r ih =>
      obtain ⟨rest, hrest, heq⟩ := ih
      refine ⟨rest, hrest, ?_⟩
      -- the carriage return is a blank at the end of the piece
      rw [splitAt, if_neg (by decide), splitAt, if_pos rfl, extendHead, List.map_cons, heq]
      rfl
  | case3 r ih =>
      obtain ⟨rest, hrest, heq⟩ := ih
      refine ⟨rest, hrest, ?_⟩
      rw [splitAt, if_pos rfl, List.map_cons, heq]
      rfl
  | case4 c r _ hc ih =>
      obtain ⟨rest, hrest, heq⟩ := ih
      rw [splitAt, if_neg hc]
      obtain ⟨p, ps, hps⟩ := List.exists_cons_of_ne_nil (splitAt_ne_nil (d := '\n') r)
      rw [hps, List.map_cons] at heq
      rw [hps, extendHead, List.map_cons]
      cases hl : lines r with
      | nil =>
          -- the rest is empty, and its only piece goes on with the character
          rw [hl, List.map_nil, List.nil_append] at heq
          obtain rfl | rfl := hrest
          · exact absurd heq (List.cons_ne_nil _ _)
          · obtain ⟨hp, hps⟩ := List.cons.inj heq
            refine ⟨[], Or.inl rfl, ?_⟩
            rw [hps, trimEnd_cons_congr (s := []) c hp]
            rfl
      | cons q qs =>
          rw [hl, List.map_cons, List.cons_append] at heq
          obtain ⟨hp, hps⟩ := List.cons.inj heq
          refine ⟨rest, hrest, ?_⟩
          rw [extendHead, List.map_cons, List.cons_append, trimEnd_cons_congr c hp, hps]

/-- What the lines of a text are trimmed to, its pieces between line feeds are. -/
theorem map_trim_splitAt_break (s : List Char) : ∃ rest, (rest = [] ∨ rest = [[]])
    ∧ (splitAt '\n' s).map trim = (lines s).map trim ++ rest := by
  obtain ⟨rest, hrest, heq⟩ := map_trimEnd_splitAt_break s
  have htrim : rest.map trim = rest := by
    obtain rfl | rfl := hrest <;> rfl
  refine ⟨rest, hrest, ?_⟩
  have hmap := congrArg (List.map trim) heq
  simp only [List.map_append, List.map_map, htrim] at hmap
  simpa only [Function.comp_def, trim_trimEnd] using hmap

end ProcUnits.Text
