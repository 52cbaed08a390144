import Mathlib.Data.List.Pairwise
import Mathlib.Data.String.Basic
import ProcUnits.Proofs.Text.Split
import ProcUnits.Text.Blank
import ProcUnits.Validation

/-!
The assignments of a map in one line, as helper scripts have them (section 4.6 of the
specification).

They stand in the order of their texts, which is not the order of the names: in a text the name has
`=` behind it, and digits are smaller than that, so `A1=2` is in front of `A=1`. No other character
of names is smaller, and the values do not matter, as no name is there twice.

* `append_mark_lt_iff`: texts with a mark inside are in the order of what they have up to it;
* `mark_lt_iff`: that is the order of the parts in front of the marks, unless one of these goes on
  with a character below the mark where the other one ends;
* `textOrder`: the entries in the order of the line, and `splitAt_text`: the pieces of the line;
* `text_readBack`: the line gives back the map, however it was stored, and when it does so in the
  order of the names.
-/

namespace ProcUnits.Variables

open Text (splitAt cutAt)

/-! ### The order of texts with a mark -/

section Mark

variable {d : Char} {n m : List Char}

/-- A text goes on where another one ends with a character below the mark. -/
def GoesOnBelow (d : Char) (n m : List Char) : Prop := ∃ c r, c < d ∧ m = n ++ c :: r

lemma goesOnBelow_cons_iff {c c' : Char} :
    GoesOnBelow d (c :: n) (c' :: m) ↔ c = c' ∧ GoesOnBelow d n m := by
  constructor
  · rintro ⟨b, r, hb, heq⟩
    obtain ⟨rfl, rfl⟩ := List.cons.inj heq
    exact ⟨rfl, b, r, hb, rfl⟩
  · rintro ⟨rfl, b, r, hb, rfl⟩
    exact ⟨b, r, hb, rfl⟩

lemma goesOnBelow_nil_iff {c : Char} : GoesOnBelow d [] (c :: m) ↔ c < d := by
  simp [GoesOnBelow]

lemma not_goesOnBelow_nil : ¬ GoesOnBelow d n [] := by
  simp [GoesOnBelow]

/-- Nothing behind the first mark matters in the order of texts that differ in front of it. -/
lemma append_mark_lt_iff (hn : d ∉ n) (hm : d ∉ m) (hne : n ≠ m) (v w : List Char) :
    n ++ d :: v < m ++ d :: w ↔ n ++ [d] < m ++ [d] := by
  induction n generalizing m with
  | nil =>
      obtain ⟨c, m, rfl⟩ := List.exists_cons_of_ne_nil hne.symm
      have hc : d ≠ c := (List.ne_and_not_mem_of_not_mem_cons hm).1
      simp [List.cons_lt_cons_iff, hc]
  | cons c n ih =>
      obtain ⟨hc, hn⟩ := List.ne_and_not_mem_of_not_mem_cons hn
      cases m with
      | nil => simp [List.cons_lt_cons_iff, hc.symm]
      | cons c' m =>
          rw [List.cons_append, List.cons_append, List.cons_append, List.cons_append,
            List.cons_lt_cons_iff, List.cons_lt_cons_iff]
          -- where the first characters are the same, the rest decides in both orders
          refine or_congr_right (and_congr_right fun hcc => ?_)
          subst hcc
          exact ih hn (List.ne_and_not_mem_of_not_mem_cons hm).2 fun heq => hne (heq ▸ rfl)

/-- With a mark behind them texts are in the order that they have without it, unless one goes on
where the other one ends. -/
lemma mark_lt_iff (hn : d ∉ n) (hm : d ∉ m) (hne : n ≠ m) :
    n ++ [d] < m ++ [d] ↔ (n < m ∧ ¬ GoesOnBelow d n m) ∨ GoesOnBelow d m n := by
  induction n generalizing m with
  | nil =>
      obtain ⟨c, m, rfl⟩ := List.exists_cons_of_ne_nil hne.symm
      have hc : d ≠ c := (List.ne_and_not_mem_of_not_mem_cons hm).1
      rw [List.nil_append, List.cons_append, List.cons_lt_cons_iff, goesOnBelow_nil_iff, not_lt,
        or_iff_left not_goesOnBelow_nil, or_iff_left fun h => hc h.1]
      exact ⟨fun h => ⟨List.nil_lt_cons c m, h.le⟩, fun h => lt_of_le_of_ne h.2 hc⟩
  | cons c n ih =>
      obtain ⟨hc, hn⟩ := List.ne_and_not_mem_of_not_mem_cons hn
      cases m with
      | nil =>
          rw [List.nil_append, List.cons_append, List.cons_lt_cons_iff, goesOnBelow_nil_iff,
            or_iff_left fun h => hc h.1.symm]
          simp
      | cons c' m =>
          rw [List.cons_append, List.cons_append, List.cons_lt_cons_iff, List.cons_lt_cons_iff,
            goesOnBelow_cons_iff, goesOnBelow_cons_iff]
          by_cases hcc : c = c'
          · subst hcc
            have hm := (List.ne_and_not_mem_of_not_mem_cons hm).2
            simpa using ih hn hm fun heq => hne (heq ▸ rfl)
          · simp [hcc, Ne.symm hcc]

end Mark

/-! ### Names -/

/-- The names pass the check for them, and the values hold no blank. -/
def IsPlain (vs : Variables) : Prop :=
  ∀ e ∈ vs.entries,
    Validation.isVariableName e.1 = true ∧ ∀ c ∈ e.2.toList, Text.isBlank c = false

instance (vs : Variables) : Decidable vs.IsPlain :=
  decidable_of_iff ((vs.entries.all fun e =>
    Validation.isVariableName e.1 && e.2.toList.all fun c => !Text.isBlank c) = true)
    (by simp [IsPlain])

section Name

variable {n m : String}

lemma isAlphanum_of_isVariableName (h : Validation.isVariableName n = true) :
    ∀ c ∈ n.toList, (c.isAlphanum || c == '_') = true := by
  rw [Validation.isVariableName] at h
  cases hn : n.toList with
  | nil => simp
  | cons c r =>
      simp only [hn, Bool.and_eq_true, List.all_eq_true] at h
      refine List.forall_mem_cons.mpr ⟨?_, h.2⟩
      change (c.isAlpha || c.isDigit || c == '_') = true
      simp only [Bool.or_eq_true] at h ⊢
      exact h.1.imp_left Or.inl

lemma not_mem_name {d : Char} (hd : (d.isAlphanum || d == '_') = false)
    (h : Validation.isVariableName n = true) : d ∉ n.toList := fun hmem =>
  absurd (isAlphanum_of_isVariableName h d hmem) (by simp [hd])

/-- Of the characters of names the digits are below the mark. -/
lemma lt_mark_iff {c : Char} (hc : (c.isAlphanum || c == '_') = true) :
    c < '=' ↔ c.isDigit = true := by
  have hkind : (c.isUpper || c.isLower || c.isDigit || c == '_') = true := hc
  simp only [Bool.or_eq_true, beq_iff_eq] at hkind
  have hlt : c < '=' ↔ c.toNat < 61 := Iff.rfl
  have hdigit : c.isDigit = true ↔ 48 ≤ c.toNat ∧ c.toNat ≤ 57 := Char.isDigit_iff_toNat
  rcases hkind with ((hupper | hlower) | hd) | rfl
  · have hle : 65 ≤ c.toNat := UInt32.le_iff_toNat_le.mp (of_decide_eq_true hupper).1
    rw [hlt, hdigit]
    omega
  · have hle : 97 ≤ c.toNat :=
      UInt32.le_iff_toNat_le.mp (of_decide_eq_true (Bool.and_eq_true_iff.mp hlower).1)
    rw [hlt, hdigit]
    omega
  · have hle : c.toNat ≤ 57 := (hdigit.mp hd).2
    exact iff_of_true (hlt.mpr (by omega)) hd
  · decide

/-- A name goes on where another one ends, first with a digit. -/
def GoesOnWithDigit (n m : String) : Prop :=
  ∃ c r, c.isDigit = true ∧ m.toList = n.toList ++ c :: r

lemma goesOnBelow_iff (hm : Validation.isVariableName m = true) :
    GoesOnBelow '=' n.toList m.toList ↔ GoesOnWithDigit n m := by
  refine exists_congr fun c => exists_congr fun r => and_congr_left fun heq => ?_
  exact lt_mark_iff (isAlphanum_of_isVariableName hm c (by simp [heq]))

/-- Names with a mark are in the order of the names but for those that go on with a digit. -/
lemma name_mark_lt_iff (hn : Validation.isVariableName n = true)
    (hm : Validation.isVariableName m = true) (hne : n ≠ m) :
    n ++ "=" < m ++ "=" ↔ (n < m ∧ ¬ GoesOnWithDigit n m) ∨ GoesOnWithDigit m n := by
  rw [String.lt_iff_toList_lt, String.lt_iff_toList_lt, String.toList_append, String.toList_append,
    ← goesOnBelow_iff hm, ← goesOnBelow_iff hn]
  exact mark_lt_iff (not_mem_name (by decide) hn) (not_mem_name (by decide) hm)
    (String.toList_inj.not.mpr hne)

/-- The values do not matter in the order of assignments to different names. -/
lemma assignment_lt_iff {v w : String} (hn : Validation.isVariableName n = true)
    (hm : Validation.isVariableName m = true) (hne : n ≠ m) :
    assignment (n, v) < assignment (m, w) ↔ n ++ "=" < m ++ "=" := by
  have happend := append_mark_lt_iff (not_mem_name (d := '=') (by decide) hn)
    (not_mem_name (by decide) hm) (String.toList_inj.not.mpr hne) v.toList w.toList
  rw [String.lt_iff_toList_lt, String.lt_iff_toList_lt]
  simpa [assignment] using happend

/-- A name is in front of one that goes on where it ends. -/
lemma lt_of_goesOnWithDigit (h : GoesOnWithDigit n m) : n < m := by
  obtain ⟨c, r, -, heq⟩ := h
  rw [String.lt_iff_toList_lt, heq]
  have hlt : n.toList ++ [] < n.toList ++ c :: r := List.append_left_lt (List.nil_lt_cons c r)
  rwa [List.append_nil] at hlt

end Name

/-! ### The line -/

/-- The entries in the order of their assignments. -/
def textOrder (vs : Variables) : List (String × String) :=
  vs.entries.mergeSort fun e f => decide (assignment e ≤ assignment f)

variable {vs : Variables}

lemma textOrder_perm (vs : Variables) : vs.textOrder.Perm vs.entries :=
  List.mergeSort_perm ..

lemma pairwise_mergeSort_le (ts : List String) :
    (ts.mergeSort fun a b => decide (a ≤ b)).Pairwise (· ≤ ·) := by
  have hsorted : (ts.mergeSort fun a b => decide (a ≤ b)).Pairwise
      fun a b => decide (a ≤ b) = true :=
    List.pairwise_mergeSort (fun a b c => by simpa using le_trans)
      (fun a b => by simpa using le_total a b) ts
  simpa only [decide_eq_true_eq] using hsorted

lemma mergeSort_entries (vs : Variables) :
    ((vs.entries.map assignment).mergeSort fun a b => decide (a ≤ b))
      = vs.textOrder.map assignment :=
  (List.map_mergeSort (f := assignment) fun _ _ _ _ => rfl).symm

/-- The line has the texts in increasing order, and no other list of them is in that order. -/
lemma mergeSort_eq_of_perm {ts us : List String} (h : ts.Perm us) :
    (ts.mergeSort fun a b => decide (a ≤ b)) = us.mergeSort fun a b => decide (a ≤ b) :=
  ((List.mergeSort_perm ..).trans (h.trans (List.mergeSort_perm ..).symm)).eq_of_pairwise
    (fun _ _ _ _ => le_antisymm) (pairwise_mergeSort_le ts) (pairwise_mergeSort_le us)

/-- Cut at its spaces the line is in pieces that are the assignments. -/
lemma splitAt_text (h : vs.IsPlain) : splitAt ' ' vs.text.toList
    = if vs.entries = [] then [[]] else vs.textOrder.map fun e => (assignment e).toList := by
  have htext : vs.text.toList
      = [' '].intercalate (vs.textOrder.map fun e => (assignment e).toList) := by
    rw [text, mergeSort_entries, String.toList_intercalate, List.map_map]
    rfl
  rw [htext]
  split_ifs with hnil
  · rw [textOrder, hnil, List.mergeSort_nil]
    rfl
  · have hne : vs.textOrder ≠ [] := fun hempty =>
      hnil (List.nil_perm.mp (hempty ▸ textOrder_perm vs))
    refine (Text.splitAt_intercalate_iff (by simpa using hne)).mpr ?_
    refine List.forall_mem_map.mpr fun e he => ?_
    obtain ⟨hname, hvalue⟩ := h e ((textOrder_perm vs).mem_iff.mp he)
    have hblank : ' ' ∉ e.2.toList := fun hmem => absurd (hvalue ' ' hmem) (by decide)
    simp [assignment, not_mem_name (d := ' ') (by decide) hname, hblank]

lemma cutAt_assignment {e : String × String} (h : Validation.isVariableName e.1 = true) :
    cutAt '=' (assignment e).toList = some (e.1.toList, e.2.toList) := by
  have hmark : '=' ∉ e.1.toList := not_mem_name (by decide) h
  simpa [assignment] using Text.cutAt_append_cons hmark e.2.toList

/-- No name is there twice in the line. -/
lemma pairwise_ne (vs : Variables) : vs.textOrder.Pairwise fun e f => e.1 ≠ f.1 :=
  (textOrder_perm vs).symm.pairwise (vs.ordered.imp ne_of_lt) fun h => h.symm

/-- The line has the names in their order with the mark behind them. -/
lemma pairwise_name_mark (h : vs.IsPlain) :
    vs.textOrder.Pairwise fun e f => e.1 ++ "=" < f.1 ++ "=" := by
  have hle : vs.textOrder.Pairwise fun e f => assignment e ≤ assignment f := by
    rw [← List.pairwise_map (f := assignment) (R := (· ≤ ·)), ← mergeSort_entries]
    exact pairwise_mergeSort_le _
  refine (hle.and (pairwise_ne vs)).imp_of_mem fun {e f} he hf hef => ?_
  have hne' := (h e ((textOrder_perm vs).mem_iff.mp he)).1
  have hnf := (h f ((textOrder_perm vs).mem_iff.mp hf)).1
  rw [← assignment_lt_iff hne' hnf hef.2 (v := e.2) (w := f.2)]
  refine lt_of_le_of_ne hef.1 fun heq => hef.2 ?_
  have hcut := cutAt_assignment hne'
  rw [show assignment e = assignment f from heq, cutAt_assignment hnf] at hcut
  exact (String.toList_inj.mp (Prod.mk.inj (Option.some.inj hcut)).1).symm

/-- The names are in the same order with the mark behind them. -/
def KeepsOrder (e f : String × String) : Prop :=
  (e.1 < f.1 → e.1 ++ "=" < f.1 ++ "=") ∧ (f.1 < e.1 → f.1 ++ "=" < e.1 ++ "=")

instance : Std.Symm KeepsOrder := ⟨fun _ _ h => h.symm⟩

lemma keepsOrder_of_pairwise {es : List (String × String)}
    (h : es.Pairwise fun e f => e.1 < f.1 ∧ e.1 ++ "=" < f.1 ++ "=") :
    ∀ e ∈ es, ∀ f ∈ es, KeepsOrder e f := by
  have hkeeps : es.Pairwise KeepsOrder := h.imp fun hef =>
    ⟨fun _ => hef.2, fun hlt => absurd hlt (String.lt_asymm hef.1)⟩
  have hrefl : ∀ e ∈ es, KeepsOrder e e := fun e _ =>
    ⟨fun hlt => absurd hlt (lt_irrefl _), fun hlt => absurd hlt (lt_irrefl _)⟩
  exact fun e he f hf => hkeeps.forall_of_forall hrefl he hf

/-- That is the order of the names just if no name goes on with a digit where another one ends. -/
lemma pairwise_name_iff (h : vs.IsPlain) : (vs.textOrder.Pairwise fun e f => e.1 < f.1)
    ↔ ∀ e ∈ vs.textOrder, ∀ f ∈ vs.textOrder, ¬ GoesOnWithDigit e.1 f.1 := by
  have hname : ∀ e ∈ vs.textOrder, Validation.isVariableName e.1 = true := fun e he =>
    (h e ((textOrder_perm vs).mem_iff.mp he)).1
  constructor
  · intro hlt e he f hf hdigit
    have hef : e.1 < f.1 := lt_of_goesOnWithDigit hdigit
    have hmark := (keepsOrder_of_pairwise (hlt.and (pairwise_name_mark h)) e he f hf).1 hef
    rcases (name_mark_lt_iff (hname e he) (hname f hf) hef.ne).mp hmark with hno | hback
    · exact hno.2 hdigit
    · exact String.lt_asymm hef (lt_of_goesOnWithDigit hback)
  · intro hnone
    refine ((pairwise_name_mark h).and (pairwise_ne vs)).imp_of_mem fun {e f} he hf hef => ?_
    rcases (name_mark_lt_iff (hname e he) (hname f hf) hef.2).mp hef.1 with hlt | hback
    · exact hlt.1
    · exact absurd hback (hnone f hf e he)

/-- The line of a map, cut at its spaces and then at the first `=` of each piece, gives every
variable with its value once, in whatever order the variables were stored. They are in the order of
the names with a mark behind them, and that is the order of the names just if no name goes on with a
digit where another one ends. The line of no variables is one empty piece. -/
theorem text_readBack (vs : Variables) (h : vs.IsPlain) :
    (∀ es : List (String × String), es.Perm vs.entries →
        " ".intercalate ((es.map assignment).mergeSort fun a b => decide (a ≤ b)) = vs.text)
      ∧ ∃ es : List (String × String), es.Perm vs.entries
        ∧ (splitAt ' ' vs.text.toList).map (cutAt '=')
          = (if es = [] then [none] else es.map fun e => some (e.1.toList, e.2.toList))
        ∧ (es.Pairwise fun e f => e.1 ++ "=" < f.1 ++ "=")
        ∧ ((es.Pairwise fun e f => e.1 < f.1)
          ↔ ∀ e ∈ es, ∀ f ∈ es, ¬ GoesOnWithDigit e.1 f.1) := by
  refine ⟨fun es hes => ?_, vs.textOrder, textOrder_perm vs, ?_, pairwise_name_mark h,
    pairwise_name_iff h⟩
  · rw [mergeSort_eq_of_perm (hes.map assignment), text]
  · have hnil : vs.textOrder = [] ↔ vs.entries = [] :=
      ⟨fun he => List.nil_perm.mp (he ▸ textOrder_perm vs),
        fun he => List.perm_nil.mp (he ▸ textOrder_perm vs)⟩
    rw [splitAt_text h]
    split_ifs with hentries horder horder
    · rfl
    · exact absurd (hnil.mpr hentries) horder
    · exact absurd (hnil.mp horder) hentries
    · rw [List.map_map]
      refine List.map_congr_left fun e he => ?_
      exact cutAt_assignment (h e ((textOrder_perm vs).mem_iff.mp he)).1

/-- Two variables, of which one goes on with a digit. -/
def digits : Variables := ofList [("A", "1"), ("A1", "2")]

/-- They are read back in the other order. -/
theorem text_readBack_digits : (splitAt ' ' digits.text.toList).map (cutAt '=')
      = [some (['A', '1'], ['2']), some (['A'], ['1'])]
    ∧ ¬ [("A1", "2"), ("A", "1")].Pairwise fun e f => e.1 < f.1 := by
  have hplain : digits.IsPlain := by decide +kernel
  obtain ⟨-, es, hperm, hread, hmark, hiff⟩ := text_readBack digits hplain
  have hreverse : [("A1", "2"), ("A", "1")].Pairwise fun e f => e.1 ++ "=" < f.1 ++ "=" := by
    simp only [List.pairwise_pair]
    decide +kernel
  have hswap : es.Perm [("A1", "2"), ("A", "1")] := hperm.trans (.swap ..)
  obtain rfl : es = [("A1", "2"), ("A", "1")] := hswap.eq_of_pairwise
    (fun _ _ _ _ hlt hgt => absurd hgt (String.lt_asymm hlt)) hmark hreverse
  refine ⟨hread, fun hlt => ?_⟩
  exact hiff.mp hlt ("A", "1") (by simp) ("A1", "2") (by simp) ⟨'1', [], by decide, by decide⟩

end ProcUnits.Variables
