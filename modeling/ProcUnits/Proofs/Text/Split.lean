import Mathlib.Tactic.Common
import ProcUnits.Text.Split

/-!
Cuts at marks, and the pieces between them.

* `cutAt_append_cons`, `cutAtPair_append`: a text is cut at the first mark, or pair of marks;
* `splitAt_append`: a mark divides the pieces before it from those behind it;
* `splitAt_intercalate_iff`: pieces that were put together are the pieces of the whole just if no
  mark is in one of them, and `intercalate_splitAt` puts those of a text together again;
* `pieces_induction`: texts by their pieces;
* `PairPieces`: the pieces between pairs of marks, which are read from the left. `pairPieces_iff`
  says that a text has these pieces only.
-/

namespace ProcUnits.Text

variable {d : Char} {s w v h t : List Char} {ps : List (List Char)}

/-! ### Cuts -/

/-- A cut in a front part is a cut in the whole. -/
lemma cutAt_append {k r : List Char} (hc : cutAt d w = some (k, r)) :
    cutAt d (w ++ v) = some (k, r ++ v) := by
  induction w generalizing k with
  | nil => simp [cutAt] at hc
  | cons c w ih =>
      rw [List.cons_append, cutAt]
      rw [cutAt] at hc
      split_ifs at hc ⊢ with hd
      · obtain ⟨rfl, rfl⟩ := Prod.mk.inj (Option.some.inj hc)
        rfl
      · obtain ⟨⟨k', r'⟩, hc', heq⟩ := Option.map_eq_some_iff.mp hc
        obtain ⟨rfl, rfl⟩ := Prod.mk.inj heq
        rw [ih hc']
        rfl

/-- Without the mark there is no cut. -/
lemma cutAt_of_not_mem (hd : d ∉ w) : cutAt d w = none := by
  induction w with
  | nil => rfl
  | cons c w ih =>
      rw [List.mem_cons, not_or] at hd
      rw [cutAt, if_neg (Ne.symm hd.1), ih hd.2]
      rfl

/-- The cut is made at the first mark. -/
lemma cutAt_append_cons (hd : d ∉ w) (v : List Char) : cutAt d (w ++ d :: v) = some (w, v) := by
  induction w with
  | nil => rw [List.nil_append, cutAt, if_pos rfl]
  | cons c w ih =>
      rw [List.mem_cons, not_or] at hd
      rw [List.cons_append, cutAt, if_neg (Ne.symm hd.1), ih hd.2]
      rfl

/-- There is no mark in front of the cut. -/
lemma not_mem_of_cutAt (hc : cutAt d w = some (h, t)) : d ∉ h := by
  induction w generalizing h with
  | nil => simp [cutAt] at hc
  | cons c w ih =>
      rw [cutAt] at hc
      split_ifs at hc with hd
      · obtain ⟨rfl, -⟩ := Prod.mk.inj (Option.some.inj hc)
        simp
      · obtain ⟨⟨h', t'⟩, hc', heq⟩ := Option.map_eq_some_iff.mp hc
        obtain ⟨rfl, rfl⟩ := Prod.mk.inj heq
        rw [List.mem_cons, not_or]
        exact ⟨Ne.symm hd, ih hc'⟩

/-- A pair is at the front or behind it. -/
lemma pair_infix_cons_iff {α : Type} {d c : α} {s : List α} :
    [d, d] <:+: c :: s ↔ (c = d ∧ s.head? = some d) ∨ [d, d] <:+: s := by
  rw [List.infix_cons_iff, List.cons_prefix_cons]
  cases s with
  | nil => simp
  | cons e s => simp [eq_comm]

/-- No pair starts where there is no mark. -/
lemma pair_infix_append_iff {α : Type} {d : α} {s t : List α} (hd : d ∉ s) :
    [d, d] <:+: s ++ t ↔ [d, d] <:+: t := by
  induction s with
  | nil => rfl
  | cons c s ih =>
      rw [List.mem_cons, not_or] at hd
      rw [List.cons_append, pair_infix_cons_iff, ih hd.2]
      exact or_iff_right fun hpair => hd.1 hpair.1.symm

/-- There is a cut wherever there is a pair. -/
lemma cutAtPair_eq_none_iff : cutAtPair d s = none ↔ ¬ [d, d] <:+: s := by
  fun_induction cutAtPair d s with
  | case1 => simp
  | case2 c => simp [pair_infix_cons_iff]
  | case3 a b r hab => simp [pair_infix_cons_iff, hab]
  | case4 a b r hab ih =>
      have hfront : ¬ (a = d ∧ (b :: r).head? = some d) := fun h => hab ⟨h.1, Option.some.inj h.2⟩
      rw [Option.map_eq_none_iff, ih, pair_infix_cons_iff (c := a), or_iff_right hfront]

/-- The pair at which a text is cut is the first one. -/
lemma cutAtPair_append (hs : ¬ [d, d] <:+: s ++ [d]) (t : List Char) :
    cutAtPair d (s ++ d :: d :: t) = some (s, t) := by
  induction s with
  | nil => rw [List.nil_append, cutAtPair, if_pos ⟨rfl, rfl⟩]
  | cons c s ih =>
      rw [List.cons_append, pair_infix_cons_iff, not_or] at hs
      -- the character makes no pair with the one behind it, be that the mark or not
      have hrest := ih hs.2
      cases s with
      | nil =>
          have hcd : ¬ (c = d ∧ d = d) := fun h => hs.1 ⟨h.1, rfl⟩
          rw [List.nil_append] at hrest
          rw [List.cons_append, List.nil_append, cutAtPair, if_neg hcd, hrest]
          rfl
      | cons e s =>
          have hce : ¬ (c = d ∧ e = d) := fun h => hs.1 ⟨h.1, congrArg some h.2⟩
          rw [List.cons_append] at hrest
          rw [List.cons_append, List.cons_append, cutAtPair, if_neg hce, hrest]
          rfl

/-- No pair starts in front of a cut. -/
lemma not_infix_of_cutAtPair (hc : cutAtPair d w = some (h, t)) : ¬ [d, d] <:+: h ++ [d] := by
  fun_induction cutAtPair d w generalizing h with
  | case1 => simp at hc
  | case2 => simp at hc
  | case3 a b r hab =>
      obtain ⟨rfl, -⟩ := Prod.mk.inj (Option.some.inj hc)
      simp [pair_infix_cons_iff]
  | case4 a b r hab ih =>
      obtain ⟨⟨u, t'⟩, hu, heq⟩ := Option.map_eq_some_iff.mp hc
      obtain ⟨rfl, rfl⟩ := Prod.mk.inj heq
      rw [List.cons_append, pair_infix_cons_iff, not_or]
      refine ⟨fun hpair => hab ⟨hpair.1, ?_⟩, ih hu⟩
      -- the front part goes on with the same character as the whole
      have hwhole := append_of_cutAtPair hu
      cases u with
      | nil => exact (List.cons.inj hwhole).1
      | cons e u =>
          rw [(List.cons.inj hwhole).1]
          exact Option.some.inj hpair.2

/-- What stands in front of a cut has no pair. -/
lemma cutAtPair_of_cutAtPair (hc : cutAtPair d w = some (h, t)) : cutAtPair d h = none :=
  cutAtPair_eq_none_iff.mpr fun hpair =>
    not_infix_of_cutAtPair hc (hpair.trans (List.prefix_append h [d]).isInfix)

/-! ### Pieces -/

/-- A text without the mark is one piece. -/
lemma splitAt_of_not_mem {s : List Char} (h : d ∉ s) : splitAt d s = [s] := by
  induction s with
  | nil => rfl
  | cons c s ih =>
      rw [List.mem_cons, not_or] at h
      rw [splitAt, if_neg (Ne.symm h.1), ih h.2]
      rfl

/-- There is always a piece. -/
lemma splitAt_ne_nil (s : List Char) : splitAt d s ≠ [] := by
  cases s with
  | nil => exact List.cons_ne_nil _ _
  | cons c s =>
      rw [splitAt]
      split_ifs
      · exact List.cons_ne_nil _ _
      · cases splitAt d s <;> exact List.cons_ne_nil _ _

/-- A mark divides the pieces before it from those behind it. -/
lemma splitAt_append (s t : List Char) :
    splitAt d (s ++ d :: t) = splitAt d s ++ splitAt d t := by
  induction s with
  | nil => simp [splitAt]
  | cons c s ih =>
      rw [List.cons_append, splitAt, ih, splitAt]
      by_cases hc : c = d
      · rw [if_pos hc, if_pos hc, List.cons_append]
      · rw [if_neg hc, if_neg hc]
        obtain ⟨p, ps, hps⟩ := List.exists_cons_of_ne_nil (splitAt_ne_nil (d := d) s)
        rw [hps]
        rfl

/-- No piece holds the mark. -/
lemma not_mem_of_mem_splitAt {p : List Char} (h : p ∈ splitAt d s) : d ∉ p := by
  induction s generalizing p with
  | nil =>
      obtain rfl : p = [] := by simpa [splitAt] using h
      simp
  | cons c s ih =>
      rw [splitAt] at h
      split_ifs at h with hc
      · rcases List.mem_cons.mp h with rfl | h
        · simp
        · exact ih h
      · obtain ⟨q, qs, hqs⟩ := List.exists_cons_of_ne_nil (splitAt_ne_nil (d := d) s)
        rw [hqs, extendHead] at h
        rcases List.mem_cons.mp h with rfl | h
        · rw [List.mem_cons, not_or]
          exact ⟨Ne.symm hc, ih (hqs ▸ List.mem_cons_self)⟩
        · exact ih (hqs ▸ List.mem_cons_of_mem q h)

/-- In pieces that were put together there is nothing but what is in them, and the mark. -/
lemma mem_of_mem_intercalate {c : Char} (h : c ∈ [d].intercalate ps) : c = d ∨ ∃ p ∈ ps, c ∈ p := by
  induction ps with
  | nil => exact absurd h List.not_mem_nil
  | cons p ps ih =>
      cases ps with
      | nil =>
          rw [List.intercalate_singleton] at h
          exact Or.inr ⟨p, List.mem_cons_self, h⟩
      | cons q qs =>
          rw [List.intercalate_cons_cons, List.append_assoc, List.mem_append, List.mem_append,
            List.mem_singleton] at h
          rcases h with hp | hd | hrest
          · exact Or.inr ⟨p, List.mem_cons_self, hp⟩
          · exact Or.inl hd
          · refine (ih hrest).imp_right ?_
            rintro ⟨r, hr, hc⟩
            exact ⟨r, List.mem_cons_of_mem p hr, hc⟩

lemma mem_intercalate {c : Char} {p : List Char} (hp : p ∈ ps) (hc : c ∈ p) :
    c ∈ [d].intercalate ps := by
  induction ps with
  | nil => exact absurd hp List.not_mem_nil
  | cons q qs ih =>
      cases qs with
      | nil =>
          rw [List.intercalate_singleton]
          exact List.mem_singleton.mp hp ▸ hc
      | cons q' qs =>
          rw [List.intercalate_cons_cons, List.mem_append]
          rcases List.mem_cons.mp hp with rfl | hp
          · exact Or.inl (List.mem_append_left _ hc)
          · exact Or.inr (ih hp)

/-- Texts that were put together have the pieces of all of them. -/
lemma splitAt_intercalate (hne : ps ≠ []) :
    splitAt d ([d].intercalate ps) = ps.flatMap (splitAt d) := by
  induction ps with
  | nil => exact absurd rfl hne
  | cons p ps ih =>
      cases ps with
      | nil => rw [List.intercalate_singleton, List.flatMap_singleton]
      | cons q qs =>
          rw [List.intercalate_cons_cons, List.append_assoc, List.singleton_append, splitAt_append,
            ih (by simp)]
          rfl

/-- Texts without a mark are their own pieces. -/
lemma flatMap_splitAt_of_not_mem (h : ∀ p ∈ ps, d ∉ p) : ps.flatMap (splitAt d) = ps := by
  induction ps with
  | nil => rfl
  | cons p ps ih =>
      obtain ⟨hp, hps⟩ := List.forall_mem_cons.mp h
      rw [List.flatMap_cons, splitAt_of_not_mem hp, ih hps]
      rfl

/-- Pieces that were put together are the pieces of the whole just if no mark is in one of
them. -/
theorem splitAt_intercalate_iff (hne : ps ≠ []) :
    splitAt d ([d].intercalate ps) = ps ↔ ∀ p ∈ ps, d ∉ p := by
  constructor
  · intro h p hp
    rw [← h] at hp
    exact not_mem_of_mem_splitAt hp
  · intro h
    rw [splitAt_intercalate hne, flatMap_splitAt_of_not_mem h]

lemma intercalate_append {α : Type} {sep : List α} {xs ys : List (List α)} (hxs : xs ≠ [])
    (hys : ys ≠ []) :
    sep.intercalate (xs ++ ys) = sep.intercalate xs ++ sep ++ sep.intercalate ys := by
  induction xs with
  | nil => exact absurd rfl hxs
  | cons x xs ih =>
      cases xs with
      | nil =>
          rw [List.singleton_append, List.intercalate_cons_of_ne_nil hys,
            List.intercalate_singleton]
      | cons x' xs =>
          rw [List.cons_append, List.intercalate_cons_of_ne_nil (by simp), ih (by simp),
            List.intercalate_cons_cons]
          simp only [List.append_assoc]

/-- What holds of a text without marks, and goes on to one with another piece in front, holds of
all texts. -/
@[elab_as_elim]
lemma pieces_induction {P : List Char → Prop} (last : ∀ p, d ∉ p → P p)
    (cons : ∀ p s, d ∉ p → P s → P (p ++ d :: s)) (s : List Char) : P s := by
  suffices h : ∀ p, d ∉ p → P (p ++ s) from h [] List.not_mem_nil
  induction s with
  | nil =>
      intro p hp
      rw [List.append_nil]
      exact last p hp
  | cons c s ih =>
      intro p hp
      by_cases hc : c = d
      · subst hc
        exact cons p s hp (ih [] List.not_mem_nil)
      · have hpc : d ∉ p ++ [c] := by simp [hp, Ne.symm hc]
        simpa using ih (p ++ [c]) hpc

/-- The pieces of a text are put together to that text again. -/
lemma intercalate_splitAt (d : Char) (s : List Char) : [d].intercalate (splitAt d s) = s := by
  induction s using pieces_induction (d := d) with
  | last p hp => rw [splitAt_of_not_mem hp, List.intercalate_singleton]
  | cons p s hp ih =>
      rw [splitAt_append, splitAt_of_not_mem hp, List.singleton_append,
        List.intercalate_cons_of_ne_nil (splitAt_ne_nil s), ih, List.append_assoc,
        List.singleton_append]

/-! ### Pieces between pairs -/

/-- The pieces that pairs of marks stand between. Of several marks in a row the first two are a
pair: none starts in a piece that another one follows. -/
inductive PairPieces (d : Char) : List Char → List (List Char) → Prop
  | last {p : List Char} (hp : ¬ [d, d] <:+: p) : PairPieces d p [p]
  | cons {p s : List Char} {ps : List (List Char)} (hp : ¬ [d, d] <:+: p ++ [d])
      (hs : PairPieces d s ps) : PairPieces d (p ++ d :: d :: s) (p :: ps)

/-- There is always a piece between pairs. -/
lemma splitAtPair_ne_nil (s : List Char) : splitAtPair d s ≠ [] := by
  fun_induction splitAtPair d s with
  | case1 => exact List.cons_ne_nil _ _
  | case2 => exact List.cons_ne_nil _ _
  | case3 => exact List.cons_ne_nil _ _
  | case4 a b r _ ih => cases splitAtPair d (b :: r) <;> exact List.cons_ne_nil _ _

/-- A character that is no mark goes on with the first piece. -/
lemma splitAtPair_cons_of_ne {c : Char} (hc : c ≠ d) (s : List Char) :
    splitAtPair d (c :: s) = extendHead c (splitAtPair d s) := by
  cases s with
  | nil => rfl
  | cons e s => rw [splitAtPair, if_neg fun h => hc h.1]

/-- The pieces of a text are pieces between pairs. -/
lemma pairPieces_splitAtPair (s : List Char) : PairPieces d s (splitAtPair d s) := by
  fun_induction splitAtPair d s with
  | case1 => exact .last (by simp)
  | case2 c => exact .last (by simp [pair_infix_cons_iff])
  | case3 a b r hab ih =>
      obtain ⟨rfl, rfl⟩ := hab
      exact .cons (p := []) (by simp [pair_infix_cons_iff]) ih
  | case4 a b r hab ih =>
      cases hps : splitAtPair d (b :: r) with
      | nil => exact absurd hps (splitAtPair_ne_nil _)
      | cons p ps =>
          rw [hps] at ih
          rw [extendHead]
          -- the first piece gets longer, and the new character makes no pair with the one behind it
          generalize htext : b :: r = text at ih
          cases ih with
          | last hp =>
              refine .last ?_
              rw [pair_infix_cons_iff, not_or]
              refine ⟨fun h => hab ⟨h.1, ?_⟩, hp⟩
              rw [← htext] at h
              exact Option.some.inj h.2
          | @cons p s ps hp hs =>
              refine .cons (p := a :: p) ?_ hs
              rw [List.cons_append, pair_infix_cons_iff, not_or]
              refine ⟨fun h => hab ⟨h.1, ?_⟩, hp⟩
              cases p with
              | nil => exact (List.cons.inj htext).1
              | cons e p =>
                  obtain rfl := (List.cons.inj htext).1
                  exact Option.some.inj h.2

lemma splitAtPair_of_not_infix (h : ¬ [d, d] <:+: s) : splitAtPair d s = [s] := by
  fun_induction splitAtPair d s with
  | case1 => rfl
  | case2 => rfl
  | case3 a b r hab =>
      obtain ⟨rfl, rfl⟩ := hab
      exact absurd (pair_infix_cons_iff.mpr (Or.inl ⟨rfl, rfl⟩)) h
  | case4 a b r _ ih =>
      rw [pair_infix_cons_iff, not_or] at h
      rw [ih h.2]
      rfl

/-- A pair divides the piece before it from those behind it, if it is the first one. -/
lemma splitAtPair_append {p : List Char} (hp : ¬ [d, d] <:+: p ++ [d]) (s : List Char) :
    splitAtPair d (p ++ d :: d :: s) = p :: splitAtPair d s := by
  induction p with
  | nil => rw [List.nil_append, splitAtPair, if_pos ⟨rfl, rfl⟩]
  | cons c p ih =>
      rw [List.cons_append, pair_infix_cons_iff, not_or] at hp
      have hrest := ih hp.2
      cases p with
      | nil =>
          have hc : c ≠ d := fun hc => hp.1 ⟨hc, rfl⟩
          rw [List.cons_append, splitAtPair_cons_of_ne hc, hrest]
          rfl
      | cons e p =>
          have hce : ¬ (c = d ∧ e = d) := fun hce => hp.1 ⟨hce.1, congrArg some hce.2⟩
          rw [List.cons_append] at hrest
          rw [List.cons_append, List.cons_append, splitAtPair, if_neg hce, hrest]
          rfl

/-- A text has one list of pieces between pairs. -/
theorem pairPieces_iff : PairPieces d s ps ↔ splitAtPair d s = ps := by
  constructor
  · intro h
    induction h with
    | last hp => exact splitAtPair_of_not_infix hp
    | cons hp _ ih => rw [splitAtPair_append hp, ih]
  · rintro rfl
    exact pairPieces_splitAtPair s

end ProcUnits.Text
