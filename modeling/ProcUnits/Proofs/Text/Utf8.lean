import Mathlib.Tactic.Common
import ProcUnits.Proofs.Text.Octets

/-!
The bytes of a text are decoded to the text.

* `head_utf8EncodeChar`: the bytes of a character are recognized, whatever follows them. There is
  a case for each length;
* `decode_encode`: so are those of a text.
-/

namespace ProcUnits.Text.Utf8

variable {b b₁ : UInt8} {c : Char} {v : ℕ}

/-! ### Bytes as numbers -/

lemma toNat_ofNat (h : v < 256) : (UInt8.ofNat v).toNat = v := by
  rw [UInt8.toNat_ofNat']
  exact Nat.mod_eq_of_lt h

lemma isTail_iff : isTail b = true ↔ 0x80 ≤ b.toNat ∧ b.toNat ≤ 0xBF := by
  simp [isTail, UInt8.le_iff_toNat_le]

/-- The second byte shuts out overlong encodings, surrogates and what lies past the last code
point. -/
lemma secondIsLegal_of_toNat (htail : 0x80 ≤ b₁.toNat ∧ b₁.toNat ≤ 0xBF)
    (hE0 : b.toNat = 0xE0 → 0xA0 ≤ b₁.toNat) (hED : b.toNat = 0xED → b₁.toNat ≤ 0x9F)
    (hF0 : b.toNat = 0xF0 → 0x90 ≤ b₁.toNat) (hF4 : b.toNat = 0xF4 → b₁.toNat ≤ 0x8F) :
    secondIsLegal b b₁ = true := by
  have heq (x : UInt8) : (b == x) = true ↔ b.toNat = x.toNat := by
    rw [beq_iff_eq, UInt8.toNat_inj]
  unfold secondIsLegal
  simp only [heq, UInt8.le_iff_toNat_le, UInt8.reduceToNat]
  split_ifs with h₁ h₂ h₃ h₄
  · simpa using ⟨hE0 h₁, htail.2⟩
  · simpa using ⟨htail.1, hED h₂⟩
  · simpa using ⟨hF0 h₃, htail.2⟩
  · simpa using ⟨htail.1, hF4 h₄⟩
  · exact isTail_iff.mpr htail

/-! ### Heads by their length -/

lemma head_one {r : List UInt8} (h : b.toNat < 0x80) :
    head b r = .char (Char.ofNat b.toNat) 0 := by
  have hlt : b < 0x80 := UInt8.lt_iff_toNat_lt.mpr h
  simp [head, hlt]

lemma not_broken (h : 0xC2 ≤ b.toNat ∧ b.toNat ≤ 0xF4) :
    ¬ b < 0x80 ∧ (b < 0xC2 || 0xF4 < b) = false := by
  simp only [UInt8.lt_iff_toNat_lt, UInt8.reduceToNat, Bool.or_eq_false_iff,
    decide_eq_false_iff_not]
  omega

lemma head_two {r : List UInt8} (h : 0xC2 ≤ b.toNat ∧ b.toNat < 0xE0)
    (hlegal : secondIsLegal b b₁ = true) :
    head b (b₁ :: r) = .char (Char.ofNat (b.toNat % 0x20 * 0x40 + tailBits b₁)) 1 := by
  obtain ⟨hascii, hbroken⟩ := not_broken (b := b) (by omega)
  have hlt : b < 0xE0 := UInt8.lt_iff_toNat_lt.mpr h.2
  simp [head, hascii, hbroken, hlegal, hlt]

lemma head_three {b₂ : UInt8} {r : List UInt8} (h : 0xE0 ≤ b.toNat ∧ b.toNat < 0xF0)
    (hlegal : secondIsLegal b b₁ = true) (htail : isTail b₂ = true) :
    head b (b₁ :: b₂ :: r) = .char
      (Char.ofNat ((b.toNat % 0x10 * 0x40 + tailBits b₁) * 0x40 + tailBits b₂)) 2 := by
  obtain ⟨hascii, hbroken⟩ := not_broken (b := b) (by omega)
  have hge : ¬ b < 0xE0 := fun hlt => by
    have hlt' : b.toNat < 0xE0 := UInt8.lt_iff_toNat_lt.mp hlt
    omega
  have hlt : b < 0xF0 := UInt8.lt_iff_toNat_lt.mpr h.2
  simp [head, hascii, hbroken, hlegal, hge, htail, hlt]

lemma head_four {b₂ b₃ : UInt8} {r : List UInt8} (h : 0xF0 ≤ b.toNat ∧ b.toNat ≤ 0xF4)
    (hlegal : secondIsLegal b b₁ = true) (htail : isTail b₂ = true) (htail' : isTail b₃ = true) :
    head b (b₁ :: b₂ :: b₃ :: r) = .char (Char.ofNat
      (((b.toNat % 0x08 * 0x40 + tailBits b₁) * 0x40 + tailBits b₂) * 0x40 + tailBits b₃)) 3 := by
  obtain ⟨hascii, hbroken⟩ := not_broken (b := b) (by omega)
  have hge : ¬ b < 0xE0 := fun hlt => by
    have hlt' : b.toNat < 0xE0 := UInt8.lt_iff_toNat_lt.mp hlt
    omega
  have hge' : ¬ b < 0xF0 := fun hlt => by
    have hlt' : b.toNat < 0xF0 := UInt8.lt_iff_toNat_lt.mp hlt
    omega
  simp [head, hascii, hbroken, hlegal, hge, hge', htail, htail']

/-! ### Characters -/

/-- A byte that carries six bits continues an encoding. -/
lemma isTail_ofNat (v : ℕ) : isTail (UInt8.ofNat (v % 64 + 128)) = true := by
  rw [isTail_iff, toNat_ofNat (by omega)]
  omega

lemma tailBits_ofNat (v : ℕ) : tailBits (UInt8.ofNat (v % 64 + 128)) = v % 64 := by
  rw [tailBits, toNat_ofNat (by omega)]
  omega

/-- The bytes of a character are recognized, whatever follows them. -/
theorem head_utf8EncodeChar (c : Char) (r : List UInt8) :
    ∃ b bs, String.utf8EncodeChar c = b :: bs ∧ head b (bs ++ r) = .char c bs.length := by
  obtain ⟨v, hv⟩ : ∃ v, v = c.val.toNat := ⟨_, rfl⟩
  have hvalid : v < 0xD800 ∨ (0xDFFF < v ∧ v < 0x110000) := hv ▸ c.valid
  have hchar : Char.ofNat v = c := hv ▸ Char.ofNat_toNat c
  unfold String.utf8EncodeChar
  simp only [← hv]
  split_ifs with h₁ h₂ h₃
  · have hb : (UInt8.ofNat v).toNat = v := toNat_ofNat (by omega)
    refine ⟨_, _, rfl, ?_⟩
    rw [head_one (by omega), hb, hchar]
    rfl
  · have hb : (UInt8.ofNat (v / 64 % 32 + 192)).toNat = v / 64 + 192 := by
      rw [toNat_ofNat (by omega)]
      omega
    refine ⟨_, _, rfl, ?_⟩
    rw [List.singleton_append, head_two (by omega), tailBits_ofNat, hb]
    · have hvalue : (v / 64 + 192) % 0x20 * 0x40 + v % 64 = v := by omega
      rw [hvalue, hchar]
      rfl
    · exact secondIsLegal_of_toNat (isTail_iff.mp (isTail_ofNat v)) (by omega) (by omega)
        (by omega) (by omega)
  · have hb : (UInt8.ofNat (v / 4096 % 16 + 224)).toNat = v / 4096 + 224 := by
      rw [toNat_ofNat (by omega)]
      omega
    have hb₁ : (UInt8.ofNat (v / 64 % 64 + 128)).toNat = v / 64 % 64 + 128 := toNat_ofNat (by omega)
    refine ⟨_, _, rfl, ?_⟩
    -- the second byte is legal, as `v` is no surrogate and has no shorter form
    rw [List.cons_append, List.singleton_append, head_three (by omega) _ (isTail_ofNat v),
      tailBits_ofNat, tailBits_ofNat, hb]
    · have hvalue : ((v / 4096 + 224) % 0x10 * 0x40 + v / 64 % 64) * 0x40 + v % 64 = v := by omega
      rw [hvalue, hchar]
      rfl
    · exact secondIsLegal_of_toNat (isTail_iff.mp (isTail_ofNat _)) (by omega) (by omega)
        (by omega) (by omega)
  · have hb : (UInt8.ofNat (v / 262144 % 8 + 240)).toNat = v / 262144 + 240 := by
      rw [toNat_ofNat (by omega)]
      omega
    have hb₁ : (UInt8.ofNat (v / 4096 % 64 + 128)).toNat = v / 4096 % 64 + 128 :=
      toNat_ofNat (by omega)
    refine ⟨_, _, rfl, ?_⟩
    -- and here, as `v` is below `0x110000`
    rw [List.cons_append, List.cons_append, List.singleton_append,
      head_four (by omega) _ (isTail_ofNat _) (isTail_ofNat v), tailBits_ofNat, tailBits_ofNat,
      tailBits_ofNat, hb]
    · have hvalue : (((v / 262144 + 240) % 0x08 * 0x40 + v / 4096 % 64) * 0x40 + v / 64 % 64) * 0x40
          + v % 64 = v := by omega
      rw [hvalue, hchar]
      rfl
    · exact secondIsLegal_of_toNat (isTail_iff.mp (isTail_ofNat _)) (by omega) (by omega)
        (by omega) (by omega)

/-! ### Texts -/

lemma decodeFrom_utf8EncodeChar (i : ℕ) (c : Char) (r : List UInt8) :
    ∃ j, decodeFrom i (String.utf8EncodeChar c ++ r) = (decodeFrom j r).map (c :: ·) := by
  obtain ⟨b, bs, hbytes, hhead⟩ := head_utf8EncodeChar c r
  refine ⟨i + bs.length + 1, ?_⟩
  rw [hbytes, List.cons_append, decodeFrom, hhead]
  simp only [List.drop_left]

lemma decodeFrom_flatMap (i : ℕ) (s : List Char) :
    decodeFrom i (s.flatMap String.utf8EncodeChar) = .ok s := by
  induction s generalizing i with
  | nil => rw [List.flatMap_nil, decodeFrom]
  | cons c s ih =>
      obtain ⟨j, hj⟩ := decodeFrom_utf8EncodeChar i c (s.flatMap String.utf8EncodeChar)
      rw [List.flatMap_cons, hj, ih]
      rfl

/-- The bytes of a text are decoded to the text. -/
theorem decode_encode (s : String) : decode (encode s) = .ok s.toList := by
  rw [encode_eq, decode, decodeFrom_flatMap]

end ProcUnits.Text.Utf8
