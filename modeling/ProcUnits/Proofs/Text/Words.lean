import Mathlib.Tactic.Common
import ProcUnits.Text.Blank

/-!
Words written with blanks between them are read back as they are.

* `IsWord`: what a word is. All words of a text are (`isWord_of_mem_words`);
* `words_append_blank`: a blank ends a word;
* `Spaced`: the ways to write words one after the other, and `words_of_spaced`: all of them are read
  alike;
* `words_unwords`: the words of words that were put together with single spaces.
-/

namespace ProcUnits.Text

variable {w s : List Char} {ws : List (List Char)}

/-- A run of characters that are not blank. -/
def IsWord (w : List Char) : Prop := w ≠ [] ∧ ∀ c ∈ w, isBlank c = false

instance : Decidable (IsWord w) :=
  decidable_of_iff (w ≠ [] ∧ (w.all fun c => !isBlank c) = true) (by simp [IsWord])

/-- The words of a text are words. -/
lemma isWord_of_mem_words (h : w ∈ words s) : IsWord w :=
  ⟨words_nonempty w h, words_blankless w h⟩

/-- The words with a space between each two. -/
def unwords (ws : List (List Char)) : List Char := [' '].intercalate ws

/-- A blank in front belongs to no word. -/
lemma words_cons_blank {b : Char} (hb : isBlank b = true) (s : List Char) :
    words (b :: s) = words s := by
  cases s with
  | nil => simp [words, hb]
  | cons d r => rw [words, if_pos hb]

/-- A blank ends a word. -/
lemma words_append_blank (hw : IsWord w) {b : Char} (hb : isBlank b = true) (s : List Char) :
    words (w ++ b :: s) = w :: words s := by
  obtain ⟨hne, hw⟩ := hw
  induction w with
  | nil => exact absurd rfl hne
  | cons c w ih =>
      have hc : isBlank c = false := hw c List.mem_cons_self
      cases w with
      | nil =>
          rw [List.singleton_append, words, if_neg (by simp [hc]), if_pos hb,
            words_cons_blank hb]
      | cons d w =>
          have hd : isBlank d = false := hw d (by simp)
          have ih := ih (by simp) fun e he => hw e (List.mem_cons_of_mem c he)
          rw [List.cons_append] at ih
          rw [List.cons_append, List.cons_append, words, if_neg (by simp [hc]),
            if_neg (by simp [hd]), ih]
          rfl

/-- A word is its only word. -/
lemma words_of_isWord (hw : IsWord w) : words w = [w] := by
  obtain ⟨hne, hw⟩ := hw
  induction w with
  | nil => exact absurd rfl hne
  | cons c w ih =>
      have hc : isBlank c = false := hw c List.mem_cons_self
      cases w with
      | nil => simp [words, hc]
      | cons d w =>
          have hd : isBlank d = false := hw d (by simp)
          rw [words, if_neg (by simp [hc]), if_neg (by simp [hd]),
            ih (by simp) fun e he => hw e (List.mem_cons_of_mem c he)]
          rfl

/-! ### Words with blanks between them -/

/-- Blanks in front belong to no word. -/
lemma words_append_of_blank {gap : List Char} (hgap : ∀ b ∈ gap, isBlank b = true)
    (s : List Char) : words (gap ++ s) = words s := by
  induction gap with
  | nil => rfl
  | cons b gap ih =>
      obtain ⟨hb, hgap⟩ := List.forall_mem_cons.mp hgap
      rw [List.cons_append, words_cons_blank hb, ih hgap]

/-- The words with blanks between each two, at least one and of any kind. -/
inductive Spaced : List (List Char) → List Char → Prop
  | nil : Spaced [] []
  | single (w : List Char) : Spaced [w] w
  | cons {w gap s v : List Char} {ws : List (List Char)} (hne : gap ≠ [])
      (hgap : ∀ b ∈ gap, isBlank b = true) (hs : Spaced (v :: ws) s) :
      Spaced (w :: v :: ws) (w ++ gap ++ s)

/-- Words are read back, however they were spaced. -/
theorem words_of_spaced (hs : Spaced ws s) (h : ∀ w ∈ ws, IsWord w) : words s = ws := by
  induction hs with
  | nil => rfl
  | single w => exact words_of_isWord (h w List.mem_cons_self)
  | @cons w gap s v ws hne hgap _ ih =>
      obtain ⟨hw, hws⟩ := List.forall_mem_cons.mp h
      obtain ⟨b, gap, rfl⟩ := List.exists_cons_of_ne_nil hne
      obtain ⟨hb, hgap⟩ := List.forall_mem_cons.mp hgap
      rw [List.append_assoc, List.cons_append, words_append_blank hw hb,
        words_append_of_blank hgap, ih hws]

/-- Single spaces are one way to space words. -/
lemma spaced_unwords (ws : List (List Char)) : Spaced ws (unwords ws) := by
  induction ws with
  | nil => exact .nil
  | cons w ws ih =>
      cases ws with
      | nil =>
          rw [unwords, List.intercalate_singleton]
          exact .single w
      | cons v ws =>
          have hsplit : unwords (w :: v :: ws) = w ++ [' '] ++ unwords (v :: ws) := by
            simp [unwords, List.intercalate_cons_cons]
          rw [hsplit]
          exact .cons (by simp) (by simp [isBlank]) ih

/-- Words that were put together are read back. -/
theorem words_unwords (h : ∀ w ∈ ws, IsWord w) : words (unwords ws) = ws :=
  words_of_spaced (spaced_unwords ws) h

end ProcUnits.Text
