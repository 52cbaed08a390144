/-!
Whole numbers written with digits, read into a bounded range.

A numeral is an optional sign and at least one digit of the radix. It is read from the left,
and reading stops at the first character that is no digit or takes the value out of the
range; that character decides which fault it is.

* `Numeral.read`: the reader; `Numeral.int64` and `Numeral.word32` fix the two ranges in use;
* `Numeral.Fault.message`: the texts of the four faults.
-/

namespace ProcUnits.Text.Numeral

/-- Why a text is not a numeral of the range. -/
inductive Fault where
  | empty
  | invalidDigit
  | tooLarge
  | tooSmall
  deriving DecidableEq, Repr

/-- The text of a fault. -/
def Fault.message : Fault → String
  | .empty => "cannot parse integer from empty string"
  | .invalidDigit => "invalid digit found in string"
  | .tooLarge => "number too large to fit in target type"
  | .tooSmall => "number too small to fit in target type"

/-- The value of a digit in a radix up to 16. -/
def digitValue (radix : Nat) (c : Char) : Option Nat :=
  let v :=
    if '0' ≤ c ∧ c ≤ '9' then some (c.toNat - '0'.toNat)
    else if 'a' ≤ c ∧ c ≤ 'f' then some (c.toNat - 'a'.toNat + 10)
    else if 'A' ≤ c ∧ c ≤ 'F' then some (c.toNat - 'A'.toNat + 10)
    else none
  v.filter (· < radix)

/-- The value of the digits after those that make `n`, none of the steps going over `limit`. -/
def magnitude (radix limit : Nat) (excess : Fault) (n : Nat) : List Char → Except Fault Nat
  | [] => .ok n
  | c :: r =>
    match digitValue radix c with
    | none => .error .invalidDigit
    | some d =>
      let m := n * radix + d
      if limit < m then .error excess else magnitude radix limit excess m r

/-- Reads a numeral of the range from `-below` to `above`. Where the range has no negative
number the minus sign is no part of a numeral. -/
def read (radix below above : Nat) (s : List Char) : Except Fault Int :=
  let positive (t : List Char) : Except Fault Int :=
    (magnitude radix above .tooLarge 0 t).map Int.ofNat
  match s with
  | [] => .error .empty
  | ['+'] => .error .invalidDigit
  | ['-'] => .error .invalidDigit
  | '+' :: r => positive r
  | '-' :: r =>
    if below = 0 then .error .invalidDigit
    else (magnitude radix below .tooSmall 0 r).map fun n => -(n : Int)
  | _ => positive s

/-- Numbers of 64 bits with a sign. -/
def int64 (radix : Nat) (s : List Char) : Except Fault Int :=
  read radix 0x8000000000000000 0x7FFFFFFFFFFFFFFF s

/-- Numbers of 32 bits without a sign. -/
def word32 (radix : Nat) (s : List Char) : Except Fault Nat :=
  (read radix 0 0xFFFFFFFF s).map Int.toNat

/-- The number, if the text is a numeral of it. -/
def int64? (radix : Nat) (s : List Char) : Option Int := (int64 radix s).toOption

/-- The number, if the text is a numeral of it. -/
def word32? (radix : Nat) (s : List Char) : Option Nat := (word32 radix s).toOption

end ProcUnits.Text.Numeral
