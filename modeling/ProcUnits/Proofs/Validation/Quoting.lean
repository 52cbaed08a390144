import Mathlib.Algebra.Order.Group.Nat
import Mathlib.Algebra.Order.Ring.Canonical
import Mathlib.Algebra.Ring.Parity
import Mathlib.Data.List.DropRight
import ProcUnits.Validation

/-!
Where the quotes of an accepted value stand (the last rule of section 4.5 of the specification).

A value with a blank or a `*` is accepted for an even number of quotes, wherever they are. So a
quote that is open there is closed again. That one is open is not checked.

* `Exposed`: a character that splits or expands the value and is not escaped; `hasRisk_iff` says
  that the scan of a value finds such characters;
* `IsQuoted`: a place between two matching quotes; `isQuoted_iff` counts them, and
  `isQuoted_iff_of_paired` says what an even number of quotes adds to that;
* `staysOneWord_iff_of_isSafeValue`: which values are accepted, and which of those stay one word.
-/

namespace ProcUnits.Validation

variable {c d q : Char} {s u front back : List Char}

/-! ### Escapes -/

/-- What comes next is escaped: the backslashes directly in front of it are odd in number. -/
def IsEscaped (front : List Char) : Prop := Odd (front.rtakeWhile (· == '\\')).length

instance (front : List Char) : Decidable (IsEscaped front) := inferInstanceAs (Decidable (Odd _))

/-- Backslashes that escape each other do not count for what comes later. -/
lemma isEscaped_append_iff (hu : Even (u.rtakeWhile (· == '\\')).length) :
    IsEscaped (u ++ front) ↔ IsEscaped front := by
  rw [IsEscaped, IsEscaped, List.rtakeWhile, List.reverse_append, List.takeWhile_append]
  split_ifs with hall
  · -- all of `front` are backslashes
    rw [List.rtakeWhile, List.length_reverse] at hu
    rw [List.rtakeWhile, List.length_reverse, List.length_reverse, List.length_append, hall,
      Nat.odd_add, iff_true_right hu]
  · rfl

/-- A blank or a `*`: a shell splits a word there, or expands it. -/
def IsRisky (c : Char) : Prop := c = '*' ∨ Text.isBlank c = true

instance (c : Char) : Decidable (IsRisky c) := inferInstanceAs (Decidable (_ ∨ _))

/-- Between the two parts of the text stands a blank or a `*` that is not escaped. -/
def Exposed (s front back : List Char) : Prop :=
  ∃ c, s = front ++ c :: back ∧ IsRisky c ∧ ¬ IsEscaped front

lemma exposed_nil_iff : Exposed (c :: s) [] back ↔ s = back ∧ IsRisky c := by
  have hnil : ¬ IsEscaped [] := by decide
  simp [Exposed, hnil]

lemma Exposed.isPrefix (h : Exposed s front back) : front <+: s := by
  obtain ⟨c, rfl, -⟩ := h
  exact List.prefix_append front (c :: back)

lemma exposed_append_iff (hu : Even (u.rtakeWhile (· == '\\')).length) :
    Exposed (u ++ s) (u ++ front) back ↔ Exposed s front back := by
  simp only [Exposed, List.append_assoc, List.append_cancel_left_eq, isEscaped_append_iff hu]

/-- The first character is exposed if it is a blank or a `*`, the others as without it. -/
lemma exposed_cons_iff (hc : c ≠ '\\') :
    (∃ front back, Exposed (c :: s) front back)
      ↔ IsRisky c ∨ ∃ front back, Exposed s front back := by
  have hu : Even ([c].rtakeWhile (· == '\\')).length := by simp [List.rtakeWhile, hc]
  constructor
  · rintro ⟨front, back, h⟩
    cases front with
    | nil => exact Or.inl (exposed_nil_iff.mp h).2
    | cons e front =>
        obtain ⟨rfl, -⟩ := List.cons_prefix_cons.mp h.isPrefix
        exact Or.inr ⟨front, back, (exposed_append_iff hu).mp h⟩
  · rintro (hc | ⟨front, back, h⟩)
    · exact ⟨[], s, exposed_nil_iff.mpr ⟨rfl, hc⟩⟩
    · exact ⟨c :: front, back, (exposed_append_iff hu).mpr h⟩

/-- A backslash and the character that it escapes are passed over. -/
lemma exposed_escape_iff :
    (∃ front back, Exposed ('\\' :: d :: s) front back)
      ↔ ∃ front back, Exposed s front back := by
  have hu : Even (['\\', d].rtakeWhile (· == '\\')).length := by
    by_cases hd : d = '\\' <;> simp [List.rtakeWhile, hd]
  constructor
  · rintro ⟨front, back, h⟩
    rcases front with - | ⟨e, - | ⟨e', front⟩⟩
    · exact absurd (exposed_nil_iff.mp h).2 (by decide)
    · obtain ⟨rfl, -⟩ := List.cons_prefix_cons.mp h.isPrefix
      obtain ⟨-, -, -, hescaped⟩ := h
      exact absurd (by decide) hescaped
    · obtain ⟨rfl, hrest⟩ := List.cons_prefix_cons.mp h.isPrefix
      obtain ⟨rfl, -⟩ := List.cons_prefix_cons.mp hrest
      exact ⟨front, back, (exposed_append_iff hu).mp h⟩
  · rintro ⟨front, back, h⟩
    exact ⟨'\\' :: d :: front, back, (exposed_append_iff hu).mpr h⟩

/-- The scan of a value finds what is exposed. -/
lemma hasRisk_iff : hasRisk s = true ↔ ∃ front back, Exposed s front back := by
  fun_induction hasRisk s with
  | case1 => simp [Exposed]
  | case2 =>
      -- a backslash at the end escapes nothing, but neither does it split a word
      refine iff_of_false Bool.false_ne_true ?_
      rintro ⟨front, back, c, heq, hc, -⟩
      have hmem : c ∈ ['\\'] := heq ▸ List.mem_append_right front List.mem_cons_self
      rw [List.mem_singleton.mp hmem] at hc
      exact absurd hc (by decide)
  | case3 d r ih => rw [exposed_escape_iff, ih]
  | case4 c r hlast hescape ih =>
      have hc : c ≠ '\\' := by
        rintro rfl
        cases r with
        | nil => exact hlast rfl rfl
        | cons d r => exact hescape d r rfl rfl
      rw [exposed_cons_iff hc, Bool.or_eq_true, ih, IsRisky, Bool.or_eq_true, beq_iff_eq]

/-! ### Quotes -/

/-- The quotes of a shell. -/
def quotes : List Char := ['"', '\'']

lemma mem_quotes_iff : q ∈ quotes ↔ q = '"' ∨ q = '\'' := by
  simp [quotes]

/-- The place between the two parts of a text is behind a quote that is odd in number, and in front
of the next one. -/
def IsQuoted (q : Char) (front back : List Char) : Prop :=
  ∃ x y z w, front = x ++ q :: y ∧ q ∉ y ∧ Even (x.count q) ∧ back = z ++ q :: w ∧ q ∉ z

/-- The quotes in front of the place are odd in number, and one more is behind it. -/
lemma isQuoted_iff : IsQuoted q front back ↔ Odd (front.count q) ∧ q ∈ back := by
  constructor
  · rintro ⟨x, y, z, w, rfl, hy, hx, rfl, -⟩
    refine ⟨?_, by simp⟩
    rw [List.count_append, List.count_cons_self, List.count_eq_zero_of_not_mem hy]
    exact hx.add_one
  · rintro ⟨hodd, hback⟩
    have hfront : q ∈ front.reverse := List.mem_reverse.mpr (List.count_pos_iff.mp hodd.pos)
    obtain ⟨y, x, hfront, hy⟩ := List.eq_append_cons_of_mem hfront
    obtain ⟨z, w, hback, hz⟩ := List.eq_append_cons_of_mem hback
    have hfront' : front = x.reverse ++ q :: y.reverse := by
      rw [← List.reverse_reverse front, hfront]
      simp
    have hy' : q ∉ y.reverse := fun h => hy (List.mem_reverse.mp h)
    refine ⟨x.reverse, y.reverse, z, w, hfront', hy', ?_, hback, hz⟩
    rw [hfront', List.count_append, List.count_cons_self, List.count_eq_zero_of_not_mem hy'] at hodd
    exact Nat.not_odd_iff_even.mp fun h => Nat.not_even_iff_odd.mpr hodd h.add_one

instance (q : Char) (front back : List Char) : Decidable (IsQuoted q front back) :=
  decidable_of_iff _ isQuoted_iff.symm

/-- The quote is in the text, and an even number of times. -/
def Paired (q : Char) (s : List Char) : Prop := q ∈ s ∧ Even (s.count q)

instance (q : Char) (s : List Char) : Decidable (Paired q s) := inferInstanceAs (Decidable (_ ∧ _))

lemma isBalanced_iff : isBalanced q s = true ↔ Paired q s := by
  simp [isBalanced, Paired, Nat.even_iff, List.count_eq_zero]

/-- A value is accepted if nothing in it is exposed, or if a quote is paired. -/
lemma isSafeValue_iff {s : String} :
    isSafeValue s = true
      ↔ (∀ front back, ¬ Exposed s.toList front back) ∨ ∃ q ∈ quotes, Paired q s.toList := by
  have hrisk : (!hasRisk s.toList) = true ↔ ∀ front back, ¬ Exposed s.toList front back := by
    rw [Bool.not_eq_true', ← Bool.not_eq_true, hasRisk_iff]
    simp
  rw [isSafeValue, Bool.or_eq_true, Bool.or_eq_true, hrisk, isBalanced_iff, isBalanced_iff,
    or_assoc]
  simp [quotes]

lemma not_isRisky_of_mem_quotes (hq : q ∈ quotes) : ¬ IsRisky q := by
  rcases mem_quotes_iff.mp hq with rfl | rfl <;> decide

/-- Where a quote is paired, the place of another character is between two of them as soon as
an odd number of them is in front of it: one more must come. -/
lemma isQuoted_iff_of_paired (hs : Paired q s) (hplace : s = front ++ c :: back) (hc : c ≠ q) :
    IsQuoted q front back ↔ Odd (front.count q) := by
  rw [isQuoted_iff, and_iff_left_iff_imp]
  intro hodd
  have heven := hs.2
  rw [hplace, List.count_append, List.count_cons_of_ne hc] at heven
  exact List.count_pos_iff.mp ((Nat.even_add'.mp heven).mp hodd).pos

/-! ### Words -/

/-- Each blank and each `*` of the text is escaped or between two matching quotes. -/
def StaysOneWord (s : List Char) : Prop :=
  ∀ front c back, s = front ++ c :: back → IsRisky c →
    IsEscaped front ∨ ∃ q ∈ quotes, IsQuoted q front back

lemma staysOneWord_iff :
    StaysOneWord s
      ↔ ∀ front back, Exposed s front back → ∃ q ∈ quotes, IsQuoted q front back := by
  constructor
  · rintro hs front back ⟨c, hplace, hc, hescaped⟩
    exact (hs front c back hplace hc).resolve_left hescaped
  · intro hs front c back hplace hc
    by_cases hescaped : IsEscaped front
    · exact Or.inl hescaped
    · exact Or.inr (hs front back ⟨c, hplace, hc, hescaped⟩)

/-- With a paired quote, it is enough that an odd number of them is in front of what is exposed. -/
lemma staysOneWord_iff_of_paired (hq : q ∈ quotes) (hs : Paired q s) :
    StaysOneWord s
      ↔ ∀ front back, Exposed s front back →
        Odd (front.count q) ∨ ∃ q' ∈ quotes, q' ≠ q ∧ IsQuoted q' front back := by
  rw [staysOneWord_iff]
  refine forall₃_congr fun front back hexposed => ?_
  obtain ⟨c, hplace, hc, -⟩ := hexposed
  have hcq : c ≠ q := by
    rintro rfl
    exact not_isRisky_of_mem_quotes hq hc
  constructor
  · rintro ⟨q', hq', hquoted⟩
    by_cases heq : q' = q
    · exact Or.inl ((isQuoted_iff_of_paired hs hplace hcq).mp (heq ▸ hquoted))
    · exact Or.inr ⟨q', hq', heq, hquoted⟩
  · rintro (hodd | ⟨q', hq', -, hquoted⟩)
    · exact ⟨q, hq, (isQuoted_iff_of_paired hs hplace hcq).mpr hodd⟩
    · exact ⟨q', hq', hquoted⟩

/-- A value is accepted just if nothing in it is exposed, or if there is a quote an even number of
times. An accepted value stays one word just if nothing is exposed, or if all that is so comes
behind an odd number of these quotes, or else between two of the other ones. -/
theorem staysOneWord_iff_of_isSafeValue (s : String) :
    (isSafeValue s = true
      ↔ (∀ front back, ¬ Exposed s.toList front back) ∨ ∃ q ∈ quotes, Paired q s.toList)
    ∧ (isSafeValue s = true →
      (StaysOneWord s.toList
        ↔ (∀ front back, ¬ Exposed s.toList front back)
          ∨ ∃ q ∈ quotes, Paired q s.toList ∧ ∀ front back, Exposed s.toList front back →
            Odd (front.count q) ∨ ∃ q' ∈ quotes, q' ≠ q ∧ IsQuoted q' front back)) := by
  refine ⟨isSafeValue_iff, fun hsafe => ⟨fun hs => ?_, ?_⟩⟩
  · refine (isSafeValue_iff.mp hsafe).imp_right ?_
    rintro ⟨q, hq, hpaired⟩
    exact ⟨q, hq, hpaired, (staysOneWord_iff_of_paired hq hpaired).mp hs⟩
  · rintro (hnone | ⟨q, hq, hpaired, hodd⟩)
    · exact staysOneWord_iff.mpr fun front back hexposed => absurd hexposed (hnone front back)
    · exact (staysOneWord_iff_of_paired hq hpaired).mpr hodd

/-- The blank of an accepted value is behind its pair of quotes. -/
theorem staysOneWord_iff_of_isSafeValue_behind :
    variableProblems "web" ("A", "\"a\" b") = []
    ∧ ¬ StaysOneWord "\"a\" b".toList := by
  refine ⟨by decide, fun hs => ?_⟩
  have hexposed : Exposed "\"a\" b".toList ['"', 'a', '"'] ['b'] :=
    ⟨' ', by decide, by decide, by decide⟩
  rcases ((staysOneWord_iff_of_isSafeValue "\"a\" b").2 (by decide)).mp hs with
    hnone | ⟨q, hq, hpaired, hodd⟩
  · exact hnone _ _ hexposed
  · rcases mem_quotes_iff.mp hq with rfl | rfl
    · rcases hodd _ _ hexposed with hodd | ⟨q, hq, hne, hquoted⟩
      · exact absurd hodd (by decide)
      · obtain rfl := (mem_quotes_iff.mp hq).resolve_left hne
        exact absurd hquoted (by decide)
    · exact absurd hpaired (by decide)

end ProcUnits.Validation
