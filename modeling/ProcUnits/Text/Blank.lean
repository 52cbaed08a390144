import ProcUnits.Text.Split

/-!
Blank characters, and the pieces that blanks and line breaks cut a text into.

* `isBlank`: the characters with the Unicode property `White_Space`;
* `trim`: a text without the blanks at its two ends;
* `words`: the longest runs of other characters, in order. `words_nonempty` and
  `words_blankless` say what a word is;
* `lines`: the pieces between line feeds, a carriage return before a line feed belonging to the
  break.
-/

namespace ProcUnits.Text

/-- The Unicode property `White_Space`. -/
def isBlank (c : Char) : Bool :=
  let n := c.toNat
  (9 ≤ n && n ≤ 13) || n == 0x20 || n == 0x85 || n == 0xA0 || n == 0x1680
    || (0x2000 ≤ n && n ≤ 0x200A) || n == 0x2028 || n == 0x2029 || n == 0x202F
    || n == 0x205F || n == 0x3000

/-- A text of blanks alone, or of nothing. -/
def isBlankText (s : List Char) : Bool := s.all isBlank

/-! ### The ends of a text -/

/-- The text from its first character that is not blank. -/
def trimStart (s : List Char) : List Char := s.dropWhile isBlank

/-- The text up to its last character that is not blank. -/
def trimEnd : List Char → List Char
  | [] => []
  | c :: r =>
    match trimEnd r with
    | [] => if isBlank c then [] else [c]
    | t => c :: t

/-- The text without the blanks at its ends. -/
def trim (s : List Char) : List Char := trimEnd (trimStart s)

/-! ### Words -/

/-- The longest runs of characters that are not blank, in order. -/
def words : List Char → List (List Char)
  | [] => []
  | [c] => if isBlank c then [] else [[c]]
  | c :: d :: r =>
    if isBlank c then words (d :: r)
    else if isBlank d then [c] :: words (d :: r)
    else extendHead c (words (d :: r))

/-- No word is empty. -/
theorem words_nonempty {s : List Char} : ∀ w ∈ words s, w ≠ [] := by
  fun_induction words s with
  | case1 => simp
  | case2 => simp
  | case3 => simp
  | case4 c d r _ ih => exact ih
  | case5 c d r _ _ ih => simpa using ih
  | case6 c d r _ _ ih =>
    cases h : words (d :: r) <;> simp_all [extendHead]

/-- No word holds a blank. -/
theorem words_blankless {s : List Char} : ∀ w ∈ words s, ∀ c ∈ w, isBlank c = false := by
  fun_induction words s with
  | case1 => simp
  | case2 => simp
  | case3 => simp_all
  | case4 c d r _ ih => exact ih
  | case5 c d r hc _ ih => simpa [hc] using ih
  | case6 c d r hc _ ih =>
    cases h : words (d :: r) with
    | nil => simpa [extendHead] using hc
    | cons w ws =>
      rw [h] at ih
      have ⟨hw, hws⟩ := List.forall_mem_cons.1 ih
      exact List.forall_mem_cons.2 ⟨List.forall_mem_cons.2 ⟨by simpa using hc, hw⟩, hws⟩

/-! ### Lines -/

/-- The pieces between line feeds, without the carriage return that stands before a line
feed. A text that ends with a line feed has no empty piece after it. -/
def lines : List Char → List (List Char)
  | [] => []
  | '\r' :: '\n' :: r => [] :: lines r
  | '\n' :: r => [] :: lines r
  | c :: r => extendHead c (lines r)

end ProcUnits.Text
