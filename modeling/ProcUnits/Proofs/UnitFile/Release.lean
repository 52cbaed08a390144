import Mathlib.Data.List.TakeWhile
import Mathlib.Data.Prod.Lex
import ProcUnits.Proofs.Text.Numeral
import ProcUnits.Proofs.Text.Words
import ProcUnits.Proofs.UnitFile.Lines
import ProcUnits.UnitFile.Upstart

/-!
Versions of upstart, on which the preflight check of section 4.6 of the specification decides.

* `Release.numbers`: the numbers of a version in lexicographic order, by which versions are compared
  (`isBefore_eq_false_iff`);
* `ofText?_intercalate`: numbers with dots between them are read as they are, up to the third one,
  and those that are missing as zero;
* `Announces`: the lines in which the daemon says its version, and `ofOutput?_of_announces`: this
  version is read.
-/

namespace ProcUnits.UnitFile.Upstart.Release

open Text (IsWord lines splitAt unwords words)
open Text.Numeral (IsDecimal word32?)

variable {v w : Release} {ds : List (List Char)} {ns : List ℕ} {s line : List Char}

/-! ### The order of versions -/

/-- The numbers of a version. The first one in which two versions differ decides. -/
def numbers (v : Release) : ℕ ×ₗ ℕ ×ₗ ℕ := toLex (v.major, toLex (v.minor, v.patch))

lemma isBefore_iff : v.isBefore w = true ↔ v.numbers < w.numbers := by
  simp only [isBefore, numbers, Prod.Lex.toLex_lt_toLex, Bool.or_eq_true, Bool.and_eq_true,
    decide_eq_true_eq, beq_iff_eq]

/-- A version that does not come before another one is at least that one. -/
lemma isBefore_eq_false_iff : v.isBefore w = false ↔ w.numbers ≤ v.numbers := by
  rw [← Bool.not_eq_true, isBefore_iff, not_lt]

/-! ### Numbers with dots between them -/

/-- The texts are decimal numerals of these numbers, none of which takes more than 32 bits. -/
def AreNumerals (ds : List (List Char)) (ns : List ℕ) : Prop :=
  List.Forall₂ (fun d n => IsDecimal d n ∧ n ≤ 0xFFFFFFFF) ds ns

/-- A number that is missing is zero. -/
lemma partOf_getElem? (h : AreNumerals ds ns) (i : ℕ) : partOf ds[i]? = some (ns[i]?.getD 0) := by
  induction h generalizing i with
  | nil => rfl
  | @cons d n ds ns hd _ ih =>
      cases i with
      | zero => exact Text.Numeral.word32?_eq_some_iff.mpr ⟨hd.2, d, hd.1, Or.inl rfl⟩
      | succ i => exact ih i

lemma AreNumerals.isDigit (h : AreNumerals ds ns) : ∀ d ∈ ds, ∀ c ∈ d, c.isDigit = true := by
  induction h with
  | nil => simp
  | cons hd _ ih => exact List.forall_mem_cons.mpr ⟨hd.1.isDigit, ih⟩

lemma AreNumerals.ne_nil (h : AreNumerals ds ns) : ∀ d ∈ ds, d ≠ [] := by
  induction h with
  | nil => simp
  | cons hd _ ih => exact List.forall_mem_cons.mpr ⟨hd.1.ne_nil, ih⟩

/-- The numbers of a version are those between the dots. -/
lemma ofText?_intercalate (hne : ds ≠ []) (h : AreNumerals ds ns) :
    ofText? (['.'].intercalate ds)
      = some ⟨ns[0]?.getD 0, ns[1]?.getD 0, ns[2]?.getD 0⟩ := by
  have hdots : ∀ d ∈ ds, '.' ∉ d := by
    intro d hd hdot
    exact absurd (h.isDigit d hd '.' hdot) (by decide)
  rw [ofText?, (Text.splitAt_intercalate_iff hne).mpr hdots]
  simp only [partOf_getElem? h]

/-! ### What the daemon says of itself -/

lemma isBlank_of_isDigit {c : Char} (hc : c.isDigit = true) : Text.isBlank c = false := by
  obtain ⟨hlow, hhigh⟩ := Char.isDigit_iff_toNat.mp hc
  have hlow : 48 ≤ c.toNat := hlow
  have hhigh : c.toNat ≤ 57 := hhigh
  simp only [Text.isBlank, Bool.or_eq_false_iff, Bool.and_eq_false_iff, decide_eq_false_iff_not,
    beq_eq_false_iff_ne]
  omega

/-- Parentheses are taken away at the end only, if there are no others. -/
lemma trimParens_append_paren (hne : s ≠ []) (hs : ∀ c ∈ s, c ≠ '(' ∧ c ≠ ')') :
    trimParens (s ++ [')']) = s := by
  have hplain : ∀ c ∈ s, (c == '(' || c == ')') = false := fun c hc => by simp [hs c hc]
  obtain ⟨c, cs, rfl⟩ := List.exists_cons_of_ne_nil hne
  have hfront := hplain c List.mem_cons_self
  have hback : ((c :: cs).reverse).dropWhile (fun d => d == '(' || d == ')')
      = (c :: cs).reverse := by
    rw [List.dropWhile_eq_self_iff]
    intro hpos
    rw [hplain _ (List.mem_reverse.mp (List.getElem_mem hpos))]
    exact Bool.false_ne_true
  simp only [trimParens, List.cons_append, List.dropWhile_cons, hfront, Bool.false_eq_true,
    if_false]
  rw [← List.cons_append, List.reverse_append, List.reverse_singleton, List.singleton_append,
    List.dropWhile_cons_of_pos (by decide), hback, List.reverse_reverse]

/-- The numbers are in the third word of the line. -/
lemma ofOutput?_of_numerals {output : String} (hne : ds ≠ []) (h : AreNumerals ds ns)
    (hline : (lines output.toList).head?
      = some ("init (upstart ".toList ++ (['.'].intercalate ds ++ [')']))) :
    ofOutput? output = some ⟨ns[0]?.getD 0, ns[1]?.getD 0, ns[2]?.getD 0⟩ := by
  have hchars : ∀ c ∈ ['.'].intercalate ds, c = '.' ∨ c.isDigit = true := by
    intro c hc
    refine (Text.mem_of_mem_intercalate hc).imp_right ?_
    rintro ⟨d, hd, hcd⟩
    exact h.isDigit d hd c hcd
  -- numbers and dots are no blanks, so the third word goes on to the parenthesis
  have hword : IsWord (['.'].intercalate ds ++ [')']) := by
    refine ⟨by simp, fun c hc => ?_⟩
    rw [List.mem_append, List.mem_singleton] at hc
    rcases hc with hc | rfl
    · rcases hchars c hc with rfl | hdigit
      · decide
      · exact isBlank_of_isDigit hdigit
    · decide
  have hwords : words ("init (upstart ".toList ++ (['.'].intercalate ds ++ [')']))
      = ["init".toList, "(upstart".toList, ['.'].intercalate ds ++ [')']] := by
    have hall : ∀ w ∈ ["init".toList, "(upstart".toList, ['.'].intercalate ds ++ [')']],
        IsWord w := by
      simp only [List.forall_mem_cons]
      exact ⟨by decide, by decide, hword, by simp⟩
    rw [← Text.words_unwords hall]
    simp [unwords, List.intercalate_cons_cons]
  have hplain : ∀ c ∈ ['.'].intercalate ds, c ≠ '(' ∧ c ≠ ')' := by
    intro c hc
    constructor <;> rintro rfl <;> exact absurd (hchars _ hc) (by decide)
  obtain ⟨rest, hlines⟩ := List.head?_eq_some_iff.mp hline
  rw [ofOutput?, hlines]
  show (((words _)[2]?).bind fun w => ofText? (trimParens w)) = _
  rw [hwords]
  show ofText? (trimParens (['.'].intercalate ds ++ [')'])) = _
  have hdigits : ['.'].intercalate ds ≠ [] := intercalate_ne_nil _ h.ne_nil hne
  rw [trimParens_append_paren hdigits hplain, ofText?_intercalate hne h]

/-- The lines in which the daemon says its version. Numbers at the end may be missing. -/
inductive Announces : Release → String → Prop
  | full (a b c : UInt32) : Announces ⟨a.toNat, b.toNat, c.toNat⟩
      ("init (upstart " ++ a.toNat.repr ++ "." ++ b.toNat.repr ++ "." ++ c.toNat.repr ++ ")")
  | noPatch (a b : UInt32) : Announces ⟨a.toNat, b.toNat, 0⟩
      ("init (upstart " ++ a.toNat.repr ++ "." ++ b.toNat.repr ++ ")")
  | majorOnly (a : UInt32) : Announces ⟨a.toNat, 0, 0⟩ ("init (upstart " ++ a.toNat.repr ++ ")")

lemma areNumerals_repr (ns : List UInt32) :
    AreNumerals (ns.map fun n => n.toNat.repr.toList) (ns.map UInt32.toNat) := by
  induction ns with
  | nil => exact .nil
  | cons n ns ih =>
      have hn : n.toNat ≤ 0xFFFFFFFF := by
        have hlt := n.toNat_lt
        omega
      exact .cons ⟨Text.Numeral.isDecimal_repr _, hn⟩ ih

/-- The version that the daemon says is read from the first line. -/
theorem ofOutput?_of_announces {output first : String} (hv : Announces v first)
    (hfirst : (lines output.toList).head? = some first.toList) : ofOutput? output = some v := by
  have hread (ns : List UInt32) (hne : ns ≠ [])
      (htext : first.toList = "init (upstart ".toList
        ++ (['.'].intercalate (ns.map fun n => n.toNat.repr.toList) ++ [')'])) :=
    ofOutput?_of_numerals (by simpa using hne) (areNumerals_repr ns) (htext ▸ hfirst)
  cases hv with
  | full a b c =>
      refine hread [a, b, c] (by simp) ?_
      simp only [String.toList_append, List.map_cons, List.map_nil, List.intercalate_cons_cons,
        List.intercalate_singleton, List.append_assoc]
      rfl
  | noPatch a b =>
      refine hread [a, b] (by simp) ?_
      simp only [String.toList_append, List.map_cons, List.map_nil, List.intercalate_cons_cons,
        List.intercalate_singleton, List.append_assoc]
      rfl
  | majorOnly a =>
      refine hread [a] (by simp) ?_
      simp only [String.toList_append, List.map_cons, List.map_nil, List.intercalate_singleton,
        List.append_assoc]
      rfl

end ProcUnits.UnitFile.Upstart.Release
