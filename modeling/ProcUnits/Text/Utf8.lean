/-!
Texts and their bytes in UTF-8.

* `head`: what the first bytes of a sequence stand for. A sequence is given up at the first
  byte that no character's encoding continues with;
* `decode`: the text of a sequence of bytes, or the place of its first fault;
* `decodeLossy`: the text with the replacement character at every fault;
* `encode`: the bytes of a text.
-/

namespace ProcUnits.Text.Utf8

/-- What the bytes after a first byte make of it. The numbers count the bytes used after the
first one. -/
inductive Head where
  /-- The encoding of a character. -/
  | char (c : Char) (used : Nat)
  /-- The next byte cannot continue the encoding. -/
  | broken (used : Nat)
  /-- The bytes end inside an encoding. -/
  | cut

/-- The place of the first fault in a sequence of bytes. -/
inductive Malformed where
  /-- `length` bytes from index `start` are the beginning of no encoding. -/
  | invalid (length start : Nat)
  /-- The bytes end inside the encoding that starts at index `start`. -/
  | incomplete (start : Nat)
  deriving DecidableEq, Repr

/-- The text of a fault. -/
def Malformed.message : Malformed → String
  | .invalid n i => s!"invalid utf-8 sequence of {n} bytes from index {i}"
  | .incomplete i => s!"incomplete utf-8 byte sequence from index {i}"

/-- A byte that continues an encoding: `10xxxxxx`. -/
def isTail (b : UInt8) : Bool := 0x80 ≤ b && b ≤ 0xBF

/-- The six bits that a continuing byte carries. -/
def tailBits (b : UInt8) : Nat := b.toNat % 0x40

/-- The range of the second byte after each first byte of three or four: it shuts out the
overlong encodings, the surrogates and all that lies past the last code point. -/
def secondIsLegal (first second : UInt8) : Bool :=
  if first == 0xE0 then 0xA0 ≤ second && second ≤ 0xBF
  else if first == 0xED then 0x80 ≤ second && second ≤ 0x9F
  else if first == 0xF0 then 0x90 ≤ second && second ≤ 0xBF
  else if first == 0xF4 then 0x80 ≤ second && second ≤ 0x8F
  else isTail second

/-- What the bytes from `b` on begin with. -/
def head (b : UInt8) (r : List UInt8) : Head :=
  if b < 0x80 then .char (Char.ofNat b.toNat) 0
  else if b < 0xC2 || 0xF4 < b then .broken 0
  else
    match r with
    | [] => .cut
    | b₁ :: r₁ =>
      if !secondIsLegal b b₁ then .broken 0
      else if b < 0xE0 then .char (Char.ofNat (b.toNat % 0x20 * 0x40 + tailBits b₁)) 1
      else
        match r₁ with
        | [] => .cut
        | b₂ :: r₂ =>
          if !isTail b₂ then .broken 1
          else if b < 0xF0 then
            .char (Char.ofNat ((b.toNat % 0x10 * 0x40 + tailBits b₁) * 0x40 + tailBits b₂)) 2
          else
            match r₂ with
            | [] => .cut
            | b₃ :: _ =>
              if !isTail b₃ then .broken 2
              else .char (Char.ofNat
                (((b.toNat % 0x08 * 0x40 + tailBits b₁) * 0x40 + tailBits b₂) * 0x40
                  + tailBits b₃)) 3

/-- Reads the bytes that stand from index `i` on. -/
def decodeFrom (i : Nat) : List UInt8 → Except Malformed (List Char)
  | [] => .ok []
  | b :: r =>
    match head b r with
    | .char c n => (decodeFrom (i + n + 1) (r.drop n)).map (c :: ·)
    | .broken n => .error (.invalid (n + 1) i)
    | .cut => .error (.incomplete i)
termination_by s => s.length
decreasing_by simp only [List.length_drop, List.length_cons]; omega

/-- The text that the bytes encode. -/
def decode (bytes : List UInt8) : Except Malformed (List Char) := decodeFrom 0 bytes

/-- The text that the bytes encode, with U+FFFD for each fault. -/
def decodeLossy : List UInt8 → List Char
  | [] => []
  | b :: r =>
    match head b r with
    | .char c n => c :: decodeLossy (r.drop n)
    | .broken n => '\uFFFD' :: decodeLossy (r.drop n)
    | .cut => ['\uFFFD']
termination_by s => s.length
decreasing_by all_goals simp only [List.length_drop, List.length_cons]; omega

/-- The bytes of a text. -/
def encode (s : String) : List UInt8 := s.toUTF8.toList

/-- The bytes of a text, each as the character with the byte's number. -/
def octets (s : String) : List Char := (encode s).map fun b => Char.ofNat b.toNat

end ProcUnits.Text.Utf8
