import Mathlib.Data.List.Induction
import Mathlib.Tactic.Common
import ProcUnits.Text.Utf8

/-!
Texts octet by octet.

* `octets_eq`: the octets of a text are those of its characters, one after the other;
* `octetsOf_of_isAscii`, `le_of_mem_octetsOf`: a character of ASCII is its own octet, and all
  octets of another one lie past ASCII;
* `flatMap_octetsOf_eq_append`, `flatMap_octetsOf_eq_append_right`: characters of ASCII at an end
  of the octets are characters at that end of the text. A pattern that is read octet by octet
  is therefore as good as one that is read character by character.
-/

namespace ProcUnits.Text.Utf8

/-! ### Bytes -/

/-- A sequence of bytes is listed from any point on. -/
lemma toList_loop (bs : ByteArray) (i : ℕ) (r : List UInt8) :
    ByteArray.toList.loop bs i r = r.reverse ++ bs.data.toList.drop i := by
  fun_induction ByteArray.toList.loop bs i r with
  | case1 i r hi ih =>
      have hi' : i < bs.data.toList.length := by simpa using hi
      have hget : bs.get! i = bs.data.toList[i] := by
        rw [Array.getElem_toList]
        exact getElem!_pos bs.data i hi
      rw [ih, hget, List.drop_eq_getElem_cons hi']
      simp
  | case2 i r hi =>
      have hi' : bs.data.toList.length ≤ i := by simpa using hi
      simp [List.drop_eq_nil_of_le hi']

/-- The bytes of a text are those of its characters. -/
lemma encode_eq (s : String) : encode s = s.toList.flatMap String.utf8EncodeChar := by
  rw [encode, String.toUTF8_eq_toByteArray, ← String.utf8Encode_toList, ByteArray.toList,
    toList_loop]
  simp [List.utf8Encode]

/-! ### Characters -/

/-- The octets of a character. -/
def octetsOf (c : Char) : List Char :=
  (String.utf8EncodeChar c).map fun b => Char.ofNat b.toNat

/-- The character belongs to ASCII. -/
def IsAscii (c : Char) : Prop := c.toNat < 0x80

instance (c : Char) : Decidable (IsAscii c) := inferInstanceAs (Decidable (c.toNat < 0x80))

/-- The octets of a text are those of its characters. -/
lemma octets_eq (s : String) : octets s = s.toList.flatMap octetsOf := by
  rw [octets, encode_eq, List.map_flatMap]
  rfl

/-- A character of ASCII is its own octet. -/
lemma octetsOf_of_isAscii {c : Char} (h : IsAscii c) : octetsOf c = [c] := by
  have hv : c.val.toNat ≤ 0x7f := Nat.le_of_lt_succ h
  have hb : (UInt8.ofNat c.val.toNat).toNat = c.toNat := by
    rw [UInt8.toNat_ofNat']
    exact Nat.mod_eq_of_lt (Nat.lt_of_le_of_lt hv (by decide))
  rw [octetsOf, String.utf8EncodeChar, if_pos hv, List.map_singleton, hb, Char.ofNat_toNat]

/-- The octet of a byte has the byte's number. -/
lemma toNat_ofNat_byte (b : UInt8) : (Char.ofNat b.toNat).toNat = b.toNat := by
  have hb : b.toNat.isValidChar := Or.inl (Nat.lt_trans b.toNat_lt (by decide))
  rw [Char.ofNat, dif_pos hb]
  rfl

/-- The octets of a character outside ASCII lie past ASCII. -/
lemma le_of_mem_octetsOf {c d : Char} (h : ¬ IsAscii c) (hd : d ∈ octetsOf c) :
    0x80 ≤ d.toNat := by
  obtain ⟨b, hb, rfl⟩ := List.mem_map.mp hd
  have hv : ¬ c.val.toNat ≤ 0x7f := fun hle => h (Nat.lt_succ_of_le hle)
  rw [toNat_ofNat_byte]
  rw [String.utf8EncodeChar, if_neg hv] at hb
  split_ifs at hb <;> simp only [List.mem_cons, List.not_mem_nil, or_false] at hb
  · rcases hb with rfl | rfl <;> rw [UInt8.toNat_ofNat'] <;> omega
  · rcases hb with rfl | rfl | rfl <;> rw [UInt8.toNat_ofNat'] <;> omega
  · rcases hb with rfl | rfl | rfl | rfl <;> rw [UInt8.toNat_ofNat'] <;> omega

/-- Each character has octets. -/
lemma octetsOf_ne_nil (c : Char) : octetsOf c ≠ [] := by
  rw [octetsOf, ne_eq, List.map_eq_nil_iff, String.utf8EncodeChar]
  split_ifs <;> simp

/-- An octet of ASCII is the whole of its character. -/
lemma octetsOf_eq_of_mem {c d : Char} (hd : d ∈ octetsOf c) (h : IsAscii d) : c = d := by
  by_cases hc : IsAscii c
  · rw [octetsOf_of_isAscii hc, List.mem_singleton] at hd
    exact hd.symm
  · exact absurd (le_of_mem_octetsOf hc hd) (Nat.not_le_of_lt h)

/-! ### Texts -/

variable {s x : List Char} {c : Char}

/-- A text of ASCII is made of its own octets. -/
lemma flatMap_octetsOf_of_isAscii (h : ∀ c ∈ s, IsAscii c) : s.flatMap octetsOf = s := by
  induction s with
  | nil => rfl
  | cons c s ih =>
      rw [List.flatMap_cons, octetsOf_of_isAscii (h c List.mem_cons_self),
        ih fun d hd => h d (List.mem_cons_of_mem c hd)]
      rfl

/-- A character of ASCII occurs in a text as often as among its octets, so in both or in
neither. -/
lemma mem_flatMap_octetsOf (h : IsAscii c) : c ∈ s.flatMap octetsOf ↔ c ∈ s := by
  rw [List.mem_flatMap]
  constructor
  · rintro ⟨d, hd, hc⟩
    rwa [← octetsOf_eq_of_mem hc h]
  · intro hc
    exact ⟨c, hc, by rw [octetsOf_of_isAscii h]; exact List.mem_cons_self⟩

/-- A character of ASCII that comes first among the octets comes first in the text. -/
lemma flatMap_octetsOf_eq_cons (h : IsAscii c) (hs : s.flatMap octetsOf = c :: x) :
    ∃ s', s = c :: s' ∧ s'.flatMap octetsOf = x := by
  cases s with
  | nil => simp at hs
  | cons d s =>
      rw [List.flatMap_cons] at hs
      obtain ⟨e, r, her⟩ := List.exists_cons_of_ne_nil (octetsOf_ne_nil d)
      have hec : e = c := by
        rw [her, List.cons_append] at hs
        exact (List.cons.inj hs).1
      have hdc : d = c := octetsOf_eq_of_mem (by rw [her, hec]; exact List.mem_cons_self) h
      subst hdc
      rw [octetsOf_of_isAscii h] at hs
      exact ⟨s, rfl, (List.cons.inj hs).2⟩

/-- A character of ASCII that comes last among the octets comes last in the text. -/
lemma flatMap_octetsOf_eq_concat (h : IsAscii c) (hs : s.flatMap octetsOf = x ++ [c]) :
    ∃ s', s = s' ++ [c] ∧ s'.flatMap octetsOf = x := by
  cases s using List.reverseRecOn with
  | nil => simp at hs
  | append_singleton s d _ =>
      rw [List.flatMap_append, List.flatMap_singleton] at hs
      obtain ⟨r, e, her⟩ : ∃ r e, octetsOf d = r ++ [e] :=
        ⟨_, _, (List.dropLast_concat_getLast (octetsOf_ne_nil d)).symm⟩
      have hec : e = c := by
        rw [her, ← List.append_assoc] at hs
        exact List.singleton_inj.mp (List.append_inj' hs rfl).2
      have hdc : d = c := octetsOf_eq_of_mem (by rw [her, hec]; simp) h
      subst hdc
      rw [octetsOf_of_isAscii h] at hs
      exact ⟨s, rfl, List.append_cancel_right hs⟩

/-- What stands before other octets, and belongs to ASCII, stands at the start of the text. -/
lemma flatMap_octetsOf_eq_append {pre : List Char} (h : ∀ c ∈ pre, IsAscii c)
    (hs : s.flatMap octetsOf = pre ++ x) :
    ∃ s', s = pre ++ s' ∧ s'.flatMap octetsOf = x := by
  induction pre generalizing s with
  | nil => exact ⟨s, rfl, hs⟩
  | cons c pre ih =>
      obtain ⟨s₁, rfl, hs₁⟩ := flatMap_octetsOf_eq_cons (h c List.mem_cons_self) hs
      obtain ⟨s₂, rfl, hs₂⟩ := ih (fun d hd => h d (List.mem_cons_of_mem c hd)) hs₁
      exact ⟨s₂, rfl, hs₂⟩

/-- What stands behind other octets, and belongs to ASCII, stands at the end of the text. -/
lemma flatMap_octetsOf_eq_append_right {suf : List Char} (h : ∀ c ∈ suf, IsAscii c)
    (hs : s.flatMap octetsOf = x ++ suf) :
    ∃ s', s = s' ++ suf ∧ s'.flatMap octetsOf = x := by
  induction suf using List.reverseRecOn generalizing s with
  | nil => exact ⟨s, by simp, by simpa using hs⟩
  | append_singleton suf c ih =>
      rw [← List.append_assoc] at hs
      obtain ⟨s₁, rfl, hs₁⟩ := flatMap_octetsOf_eq_concat (h c (by simp)) hs
      obtain ⟨s₂, rfl, hs₂⟩ := ih (fun d hd => h d (List.mem_append_left _ hd)) hs₁
      exact ⟨s₂, by simp, hs₂⟩

end ProcUnits.Text.Utf8
