/-!
Cutting a text at a mark.

* `cutAt d`: the text before and after the first character `d`;
* `cutAtPair d`: the text before and after the first `d` that is followed by another `d`;
* `splitAt d` and `splitAtPair d`: the pieces between all of them, read from the left.

`append_of_cutAt` and `append_of_cutAtPair` say that a cut loses nothing but its mark.
-/

namespace ProcUnits.Text

/-- The text before and after the first `d`. -/
def cutAt (d : Char) : List Char → Option (List Char × List Char)
  | [] => none
  | c :: r => if c = d then some ([], r) else (cutAt d r).map fun p => (c :: p.1, p.2)

/-- The text before and after the first `d` that another `d` follows. -/
def cutAtPair (d : Char) : List Char → Option (List Char × List Char)
  | [] => none
  | [_] => none
  | a :: b :: r =>
    if a = d ∧ b = d then some ([], r)
    else (cutAtPair d (b :: r)).map fun p => (a :: p.1, p.2)

/-- Puts a character in front of the first piece. -/
def extendHead (c : Char) : List (List Char) → List (List Char)
  | [] => [[c]]
  | p :: ps => (c :: p) :: ps

/-- The pieces between the characters `d`. There is one more of them than characters `d`. -/
def splitAt (d : Char) : List Char → List (List Char)
  | [] => [[]]
  | c :: r => if c = d then [] :: splitAt d r else extendHead c (splitAt d r)

/-- The pieces between the pairs of characters `d`. -/
def splitAtPair (d : Char) : List Char → List (List Char)
  | [] => [[]]
  | [c] => [[c]]
  | a :: b :: r =>
    if a = d ∧ b = d then [] :: splitAtPair d r else extendHead a (splitAtPair d (b :: r))

/-- A cut loses the mark and nothing else. -/
theorem append_of_cutAt {d : Char} {s a b : List Char} (h : cutAt d s = some (a, b)) :
    s = a ++ d :: b := by
  induction s generalizing a with
  | nil => simp [cutAt] at h
  | cons c r ih =>
    by_cases hc : c = d
    · simp [cutAt, hc] at h
      simp [hc, ← h.1, ← h.2]
    · simp only [cutAt, if_neg hc, Option.map_eq_some_iff] at h
      obtain ⟨⟨x, y⟩, hxy, he⟩ := h
      obtain ⟨rfl, rfl⟩ := Prod.mk.inj he
      rw [ih hxy, List.cons_append]

/-- A cut at a pair loses the pair and nothing else. -/
theorem append_of_cutAtPair {d : Char} {s a b : List Char} (h : cutAtPair d s = some (a, b)) :
    s = a ++ d :: d :: b := by
  fun_induction cutAtPair d s generalizing a with
  | case1 => simp at h
  | case2 => simp at h
  | case3 x y r hxy => simp_all
  | case4 x y r _ ih =>
    obtain ⟨⟨u, v⟩, huv, he⟩ := Option.map_eq_some_iff.1 h
    obtain ⟨rfl, rfl⟩ := Prod.mk.inj he
    rw [ih huv, List.cons_append]

end ProcUnits.Text
