import ProcUnits.Glob
import ProcUnits.Proofs.Text.Octets

/-!
Patterns with one star, as the exporter removes files by (section 4.7 of the specification).

* `Glob.IsPlain`: the characters that a pattern takes as they are;
* `pieces_star`: the elements of a pattern that is plain but for one star;
* `run_star_iff`: such elements match what begins and ends as they do, with no slash between;
* `isMatch_star_iff`: the same for patterns and names that are texts.
-/

namespace ProcUnits.Glob

open Text.Utf8 (IsAscii octets octetsOf)

/-- The character means itself in a pattern. -/
structure IsPlain (c : Char) : Prop where
  isAscii : IsAscii c
  ne_mark : c ≠ '!'
  ne_star : c ≠ '*'
  ne_any : c ≠ '?'
  ne_class : c ≠ '['
  ne_escape : c ≠ '\\'
  ne_brace : c ≠ '{'

/-! ### Elements -/

/-- A plain character is an element of its own. -/
lemma piecesFrom_cons {c : Char} (h : IsPlain c) (n : ℕ) (r : List Char) :
    piecesFrom (n + 1) (c :: r) = .octet c :: piecesFrom n r := by
  rw [piecesFrom]
  · exact fun r' h' => absurd h' h.ne_star
  · exact h.ne_star
  · exact h.ne_any
  · exact h.ne_class
  · exact fun h' => absurd h' h.ne_escape
  · exact fun d r' h' => absurd h' h.ne_escape

/-- Plain characters at the start of a pattern are elements of their own. -/
lemma piecesFrom_append {pre : List Char} (h : ∀ c ∈ pre, IsPlain c) (n : ℕ) (r : List Char) :
    piecesFrom (pre.length + n) (pre ++ r) = pre.map .octet ++ piecesFrom n r := by
  induction pre with
  | nil => simp
  | cons c pre ih =>
      have hlen : (c :: pre).length + n = pre.length + n + 1 := by
        rw [List.length_cons]
        omega
      rw [hlen, List.cons_append, piecesFrom_cons (h c List.mem_cons_self),
        ih fun d hd => h d (List.mem_cons_of_mem c hd)]
      rfl

/-- A star that no other one follows is an element of its own. -/
lemma piecesFrom_star {suf : List Char} (h : ∀ c ∈ suf, IsPlain c) (n : ℕ) :
    piecesFrom (n + 1) ('*' :: suf) = .star :: piecesFrom n suf := by
  rw [piecesFrom]
  rintro r rfl
  exact (h '*' List.mem_cons_self).ne_star rfl

/-- The elements of a pattern that is plain but for one star. -/
lemma pieces_star {pre suf : List Char} (hpre : ∀ c ∈ pre, IsPlain c)
    (hsuf : ∀ c ∈ suf, IsPlain c) :
    pieces (pre ++ '*' :: suf) = pre.map .octet ++ .star :: suf.map .octet := by
  have hlen : (pre ++ '*' :: suf).length + 1 = pre.length + (suf.length + 1 + 1) := by
    simp only [List.length_append, List.length_cons]
    omega
  have hend : piecesFrom (suf.length + 1) suf = suf.map .octet := by
    have h := piecesFrom_append hsuf 1 []
    rw [List.append_nil] at h
    rw [h, piecesFrom, List.append_nil]
  rw [pieces, hlen, piecesFrom_append hpre, piecesFrom_star hsuf, hend]

/-! ### Matching -/

/-- Octets match themselves at the start of a name. -/
lemma run_octets_append_iff {pre : List Char} {ps : List Piece} {s : List Char} :
    Piece.run (pre.map .octet ++ ps) s = .yes ↔ ∃ x, s = pre ++ x ∧ Piece.run ps x = .yes := by
  induction pre generalizing s with
  | nil => simp
  | cons d pre ih =>
      cases s with
      | nil => simp [Piece.run]
      | cons c s =>
          rw [List.map_cons, List.cons_append, Piece.run]
          by_cases hcd : c = d
          · rw [if_pos hcd, ih]
            simp [hcd]
          · rw [if_neg hcd]
            simp [hcd]

/-- Octets match themselves and nothing else. -/
lemma run_octets (suf s : List Char) :
    Piece.run (suf.map .octet) s = if s = suf then .yes else .no := by
  induction suf generalizing s with
  | nil => cases s <;> rfl
  | cons d suf ih =>
      cases s with
      | nil => rfl
      | cons c s =>
          rw [List.map_cons, Piece.run, ih]
          by_cases hcd : c = d <;> simp [hcd]

/-- A star before octets leaves out whatever is no slash. -/
lemma runStar_octets_iff {suf s : List Char} :
    runStar (Piece.run (suf.map .octet)) s = .yes ↔ ∃ x, s = x ++ suf ∧ '/' ∉ x := by
  induction s with
  | nil =>
      rw [runStar, run_octets]
      constructor
      · intro h
        split_ifs at h with hs
        exact ⟨[], hs, List.not_mem_nil⟩
      · rintro ⟨x, hx, -⟩
        rw [if_pos (List.append_eq_nil_iff.mp hx.symm).2.symm]
  | cons c s ih =>
      rw [runStar, run_octets]
      by_cases hs : c :: s = suf
      · simp only [if_pos hs, true_iff]
        exact ⟨[], hs, List.not_mem_nil⟩
      · simp only [if_neg hs]
        constructor
        · intro h
          split_ifs at h with hc
          obtain ⟨x, rfl, hx⟩ := ih.mp h
          exact ⟨c :: x, rfl, by simp [Ne.symm hc, hx]⟩
        · rintro ⟨x, hx, hslash⟩
          cases x with
          | nil => exact absurd hx hs
          | cons d x =>
              obtain ⟨rfl, rfl⟩ := List.cons.inj hx
              rw [List.mem_cons, not_or] at hslash
              rw [if_neg (Ne.symm hslash.1)]
              exact ih.mpr ⟨x, rfl, hslash.2⟩

/-- A pattern that is plain but for one star matches what begins and ends as it does. -/
lemma run_star_iff {pre suf s : List Char} (hpre : ∀ c ∈ pre, IsPlain c)
    (hsuf : ∀ c ∈ suf, IsPlain c) :
    Piece.run (pieces (pre ++ '*' :: suf)) s = .yes
      ↔ ∃ x, s = pre ++ x ++ suf ∧ '/' ∉ x := by
  rw [pieces_star hpre hsuf, run_octets_append_iff]
  simp only [Piece.run, runStar_octets_iff]
  constructor
  · rintro ⟨_, rfl, x, rfl, hx⟩
    exact ⟨x, (List.append_assoc ..).symm, hx⟩
  · rintro ⟨x, rfl, hx⟩
    exact ⟨x ++ suf, List.append_assoc .., x, rfl, hx⟩

/-! ### Texts -/

/-- The verdict counts as it is if no mark opens the pattern. -/
lemma isMatch_iff_of_plain {pattern name : String} {c : Char} {r : List Char}
    (hc : IsPlain c) (hp : octets pattern = c :: r) (hbrace : '{' ∉ c :: r) :
    isMatch pattern name = true
      ↔ Piece.run (pieces (c :: r)) (octets name) = .yes := by
  have hmarks : (c :: r).takeWhile (· == '!') = [] := by
    simp [hc.ne_mark]
  have hrest : (c :: r).dropWhile (· == '!') = c :: r := by
    simp [hc.ne_mark]
  have hdirs : dropDirectories false (c :: r) = c :: r := by
    rw [dropDirectories]
    exact fun r' h => absurd (List.cons.inj h).1 hc.ne_star
  have hverdict : verdict (c :: r) (octets name) = Piece.run (pieces (c :: r)) (octets name) := by
    rw [verdict, if_neg (by simpa using hbrace)]
  simp only [isMatch, hp, hmarks, hrest, List.isEmpty_nil, Bool.not_true, hdirs, hverdict]
  cases Piece.run (pieces (c :: r)) (octets name) <;> simp

/-- A pattern that is plain but for one star matches the names that begin and end as it does,
with no slash between. -/
theorem isMatch_star_iff {pre suf name : String} (hne : pre ≠ "")
    (hpre : ∀ c ∈ pre.toList, IsPlain c) (hsuf : ∀ c ∈ suf.toList, IsPlain c) :
    isMatch (pre ++ "*" ++ suf) name = true
      ↔ ∃ s, name = pre ++ s ++ suf ∧ '/' ∉ s.toList := by
  have hstar : "*".toList = ['*'] := rfl
  have hplain : ∀ c ∈ (pre ++ "*" ++ suf).toList, IsAscii c := by
    simp only [String.toList_append, List.mem_append, hstar, List.mem_singleton]
    rintro c ((hc | rfl) | hc)
    · exact (hpre c hc).isAscii
    · decide
    · exact (hsuf c hc).isAscii
  have hoctets : octets (pre ++ "*" ++ suf) = pre.toList ++ '*' :: suf.toList := by
    rw [Text.Utf8.octets_eq, Text.Utf8.flatMap_octetsOf_of_isAscii hplain]
    simp [String.toList_append, hstar]
  obtain ⟨c, r, hcr⟩ : ∃ c r, pre.toList = c :: r :=
    List.exists_cons_of_ne_nil fun h => hne (String.toList_eq_nil_iff.mp h)
  have hbrace : '{' ∉ pre.toList ++ '*' :: suf.toList := by
    simp only [List.mem_append, List.mem_cons, not_or]
    exact ⟨fun h => (hpre _ h).ne_brace rfl, by decide, fun h => (hsuf _ h).ne_brace rfl⟩
  have hverdict : isMatch (pre ++ "*" ++ suf) name = true
      ↔ Piece.run (pieces (pre.toList ++ '*' :: suf.toList)) (octets name) = .yes := by
    rw [hcr] at hoctets hbrace ⊢
    exact isMatch_iff_of_plain (hpre c (hcr ▸ List.mem_cons_self)) hoctets hbrace
  rw [hverdict, run_star_iff hpre hsuf, Text.Utf8.octets_eq]
  have hslash : IsAscii '/' := by decide
  constructor
  · rintro ⟨x, hx, hx'⟩
    rw [List.append_assoc] at hx
    -- octets of ASCII at the two ends are characters there
    obtain ⟨u, hu, hux⟩ :=
      Text.Utf8.flatMap_octetsOf_eq_append (fun c hc => (hpre c hc).isAscii) hx
    obtain ⟨v, rfl, rfl⟩ :=
      Text.Utf8.flatMap_octetsOf_eq_append_right (fun c hc => (hsuf c hc).isAscii) hux
    refine ⟨String.ofList v, String.toList_injective ?_, ?_⟩
    · simp [hu]
    · rw [String.toList_ofList]
      exact fun h => hx' ((Text.Utf8.mem_flatMap_octetsOf hslash).mpr h)
  · rintro ⟨s, rfl, hs⟩
    refine ⟨s.toList.flatMap octetsOf, ?_, ?_⟩
    · simp only [String.toList_append, List.flatMap_append,
        Text.Utf8.flatMap_octetsOf_of_isAscii fun c hc => (hpre c hc).isAscii,
        Text.Utf8.flatMap_octetsOf_of_isAscii fun c hc => (hsuf c hc).isAscii]
    · exact fun h => hs ((Text.Utf8.mem_flatMap_octetsOf hslash).mp h)

end ProcUnits.Glob
