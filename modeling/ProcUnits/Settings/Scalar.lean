import ProcUnits.Text.Numeral
import ProcUnits.Yaml.Node

/-!
The scalars of settings. A text is taken as it is written, whatever it looks like; a truth value
and a number have to be plain, or a literal block with the tag of their type.

* `textOf?`, `boolOf?`, `intOf?`: the value of a node;
* `optionalTextOf?`: a text or nothing, nothing being written as an empty plain scalar or one of
  four words;
* `integer?`: the integers in their four radixes.
-/

namespace ProcUnits.Settings

open Yaml (Node Style Tag)

/-- The tag is that of one of the format's own types. -/
def isType (type : String) (t : Tag) : Bool := t.handle ++ t.suffix == "tag:yaml.org,2002:" ++ type

/-- A scalar of this style and tag may have the type. -/
def mayBe (type : String) (style : Style) (tag : Option Tag) : Bool :=
  match style with
  | .plain => true
  | .literal => tag.any (isType type)
  | _ => false

/-! ### Words and numbers -/

/-- The truth values of words. -/
def truth? : String → Option Bool
  | "true" | "True" | "TRUE" => some true
  | "false" | "False" | "FALSE" => some false
  | _ => none

/-- The words for nothing. -/
def isNullWord (s : String) : Bool := ["null", "Null", "NULL", "~"].contains s

/-- The text after a given start. -/
def after? : List Char → List Char → Option (List Char)
  | [], s => some s
  | _ :: _, [] => none
  | a :: start, c :: s => if a = c then after? start s else none

/-- A numeral of a radix without any sign. -/
def unsigned? (radix : Nat) (negative : Bool) (digits : List Char) : Option Int :=
  match digits with
  | '+' :: _ => none
  | '-' :: _ => none
  | _ => Text.Numeral.int64? radix (if negative then '-' :: digits else digits)

/-- The marks of the radixes other than ten. -/
def radixes : List (List Char × Nat) := [(['0', 'x'], 16), (['0', 'o'], 8), (['0', 'b'], 2)]

/-- The number after one of the marks. -/
def marked? (negative : Bool) (s : List Char) : Option Int :=
  radixes.findSome? fun (mark, radix) => (after? mark s).bind (unsigned? radix negative)

/-- Several digits of which the first is a zero. -/
def isPadded : List Char → Bool
  | '0' :: d :: r => (d :: r).all Char.isDigit
  | _ => false

/-- The number that digits stand for after its sign. -/
def signed? (negative : Bool) (s : List Char) : Option Int :=
  match marked? negative s with
  | some i => some i
  | none => if isPadded s then none else unsigned? 10 negative s

/-- The integer of 64 bits that a text stands for. -/
def integer? (s : String) : Option Int :=
  match s.toList with
  | '+' :: r => signed? false r
  | '-' :: r => signed? true r
  | r => signed? false r

/-! ### Nodes -/

/-- The text of a scalar. -/
def textOf? : Node → Option String
  | .scalar _ _ s => some s
  | _ => none

/-- The truth value of a scalar. -/
def boolOf? : Node → Option Bool
  | .scalar style tag s => if mayBe "bool" style tag then truth? s else none
  | _ => none

/-- The integer of a scalar. -/
def intOf? : Node → Option Int
  | .scalar style tag s => if mayBe "int" style tag then integer? s else none
  | _ => none

/-- The text of a scalar, or nothing. A scalar with the tag of nothing has to be a word for
it. -/
def optionalTextOf? : Node → Option (Option String)
  | .scalar .plain (some tag) s =>
    if isType "null" tag then (if isNullWord s then some none else none) else some (some s)
  | .scalar .plain none s => some (if s.isEmpty || isNullWord s then none else some s)
  | .scalar _ _ s => some (some s)
  | _ => none

end ProcUnits.Settings
