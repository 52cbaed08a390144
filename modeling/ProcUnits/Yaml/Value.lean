import ProcUnits.Yaml.Node
import ProcUnits.Text.Numeral
import ProcUnits.Text.Blank

/-!
Values: YAML documents with the types of their scalars decided, from which service files with
sections are read (section 4.3 of the specification).

* `Value`: the tree of a document; a mapping keeps its entries in their order. `Value.same`
  compares two of them, and `Value.same_iff` says that it decides whether they are equal;
* `Value.ofPlain`: the type of a plain scalar, read off its text;
* `Value.get?`: the value under a key; a key that is missing, null or malformed has none;
* `Value.ofNode`, `Value.load`: the value of a node, and of the first document of a text.
-/

namespace ProcUnits.Yaml

/-- A value. -/
inductive Value where
  | null
  | bool (b : Bool)
  | int (i : Int)
  /-- A number that is no integer, or too large for one, as it was written. -/
  | real (text : String)
  | str (s : String)
  | list (items : List Value)
  | map (entries : List (Value × Value))
  /-- A scalar whose tag does not fit its text. -/
  | bad
  deriving Repr, Inhabited

namespace Value

/-! ### Equality -/

mutual

/-- The values are the same. -/
def same : Value → Value → Bool
  | .null, .null => true
  | .bool b, .bool c => b == c
  | .int i, .int j => i == j
  | .real s, .real t => s == t
  | .str s, .str t => s == t
  | .list vs, .list ws => sameItems vs ws
  | .map es, .map fs => sameEntries es fs
  | .bad, .bad => true
  | _, _ => false

/-- The values of two sequences are the same. -/
def sameItems : List Value → List Value → Bool
  | [], [] => true
  | v :: vs, w :: ws => same v w && sameItems vs ws
  | _, _ => false

/-- The entries of two mappings are the same, in the same order. -/
def sameEntries : List (Value × Value) → List (Value × Value) → Bool
  | [], [] => true
  | (k, v) :: es, (l, w) :: fs => same k l && same v w && sameEntries es fs
  | _, _ => false

end

mutual

/-- Values are compared as trees. -/
theorem same_iff : ∀ v w : Value, same v w = true ↔ v = w
  | .list vs, w => by cases w <;> simp [same, sameItems_iff vs]
  | .map es, w => by cases w <;> simp [same, sameEntries_iff es]
  | .null, w | .bool _, w | .int _, w | .real _, w | .str _, w | .bad, w => by
    cases w <;> simp [same]

theorem sameItems_iff : ∀ vs ws : List Value, sameItems vs ws = true ↔ vs = ws
  | [], ws => by cases ws <;> simp [sameItems]
  | v :: vs, ws => by cases ws <;> simp [sameItems, same_iff v, sameItems_iff vs]

theorem sameEntries_iff : ∀ es fs : List (Value × Value), sameEntries es fs = true ↔ es = fs
  | [], fs => by cases fs <;> simp [sameEntries]
  | (k, v) :: es, fs => by
    cases fs <;> simp [sameEntries, Prod.ext_iff, same_iff k, same_iff v, sameEntries_iff es]

end

instance : DecidableEq Value := fun v w => decidable_of_iff _ (same_iff v w)

/-- The name of a value's type in messages. -/
def kind : Value → String
  | .real _ => "a float"
  | .int _ => "an integer"
  | .str _ => "a string"
  | .bool _ => "a boolean"
  | .list _ => "a list"
  | .map _ => "a map"
  | .null => "null"
  | .bad => "nothing"

/-- The entries of a mapping. -/
def entries? : Value → Option (List (Value × Value))
  | .map es => some es
  | _ => none

/-- The text of a scalar. -/
def text? : Value → Option String
  | .str s => some s
  | .real s => some s
  | .int i => some (toString i)
  | .bool true => some "true"
  | .bool false => some "false"
  | _ => none

/-- The value is the text `s`. -/
def isStr (s : String) : Value → Bool
  | .str t => t == s
  | _ => false

/-- The value stands for something. -/
def isPresent : Value → Bool
  | .null | .bad => false
  | _ => true

/-- The value under a key, if it stands for something. What is no mapping has no keys. -/
def get? (v : Value) (key : String) : Option Value :=
  match v with
  | .map es => ((es.find? (·.1.isStr key)).map (·.2)).filter isPresent
  | _ => none

/-! ### Plain scalars -/

/-- The digits at the front of a text, and the rest. -/
def spanDigits (s : List Char) : List Char × List Char :=
  (s.takeWhile Char.isDigit, s.dropWhile Char.isDigit)

/-- The exponent of a decimal number, or nothing. -/
def isExponent : List Char → Bool
  | [] => true
  | c :: r =>
    (c == 'e' || c == 'E') &&
      let digits :=
        match r with
        | '+' :: d => d
        | '-' :: d => d
        | d => d
      !digits.isEmpty && digits.all Char.isDigit

/-- A decimal number: digits with at most one point among them, and an exponent. -/
def isDecimal (s : List Char) : Bool :=
  let unsigned :=
    match s with
    | '+' :: r => r
    | '-' :: r => r
    | r => r
  let (whole, rest) := spanDigits unsigned
  match rest with
  | '.' :: r =>
    let (fraction, rest) := spanDigits r
    !(whole.isEmpty && fraction.isEmpty) && isExponent rest
  | _ => !whole.isEmpty && isExponent rest

/-- The names of the numbers that have no digits. -/
def specialReals : List String :=
  [".inf", ".Inf", ".INF", "+.inf", "+.Inf", "+.INF", "-.inf", "-.Inf", "-.INF",
    ".nan", ".NaN", ".NAN"]

/-- The text of a number that need not be an integer. -/
def isReal (s : String) : Bool := specialReals.contains s || isDecimal s.toList

/-- The integer that a plain scalar with a radix or with a plus sign stands for. -/
def markedInt : List Char → Option Int
  | '0' :: 'x' :: r => Text.Numeral.int64? 16 r
  | '0' :: 'o' :: r => Text.Numeral.int64? 8 r
  | '+' :: r => Text.Numeral.int64? 10 r
  | _ => none

/-- The value of a plain scalar without a tag. -/
def ofPlain (s : String) : Value :=
  match markedInt s.toList with
  | some i => .int i
  | none =>
    if s == "" || s == "~" || s == "null" then .null
    else if s == "true" || s == "True" || s == "TRUE" then .bool true
    else if s == "false" || s == "False" || s == "FALSE" then .bool false
    else
      match Text.Numeral.int64? 10 s.toList with
      | some i => .int i
      | none => if isReal s then .real s else .str s

/-- The value of a plain scalar whose tag names a type of the format. -/
def ofTagged (type s : String) : Value :=
  if type == "bool" then
    if s == "true" then .bool true else if s == "false" then .bool false else .bad
  else if type == "int" then
    match Text.Numeral.int64? 10 s.toList with
    | some i => .int i
    | none => .bad
  else if type == "float" then if isReal s then .real s else .bad
  else if type == "null" then if s == "~" || s == "null" then .null else .bad
  else .str s

/-- The value of a scalar. One that is quoted or a block is always a text. -/
def ofScalar (style : Style) (tag : Option Tag) (s : String) : Value :=
  match style, tag with
  | .plain, none => ofPlain s
  | .plain, some t => if t.handle == "tag:yaml.org,2002:" then ofTagged t.suffix s else .str s
  | _, _ => .str s

/-! ### Documents -/

/-- Puts the keys and values of a mapping together. A malformed value cannot be a key: what
follows it takes its place. No key may stand there twice. -/
def pair : Option Value → List (Value × Value) → List Value → Except Cause (List (Value × Value))
  | _, done, [] => .ok done.reverse
  | none, done, v :: vs =>
    match v with
    | .bad => pair none done vs
    | k => pair (some k) done vs
  | some k, done, v :: vs =>
    if done.any (·.1 == k) then .error .duplicateKey else pair none ((k, v) :: done) vs

mutual

/-- The value of a node. -/
def ofNode : Node → Except Cause Value
  | .scalar style tag s => .ok (ofScalar style tag s)
  | .list items => do return .list (← ofNodes items)
  | .map entries => do return .map (← pair none [] (← ofEntries entries))
  | .loop => .ok .bad

/-- The values of several nodes. -/
def ofNodes : List Node → Except Cause (List Value)
  | [] => .ok []
  | n :: ns => do return (← ofNode n) :: (← ofNodes ns)

/-- The keys and values of entries, one after the other. -/
def ofEntries : List (Node × Node) → Except Cause (List Value)
  | [] => .ok []
  | (k, v) :: es => do
    let key ← ofNode k
    let value ← ofNode v
    return key :: value :: (← ofEntries es)

end

/-- The first document of a text. All of them have to be well formed. -/
def load (text : List Char) : Except Cause Value := do
  let values ← ofNodes (← Node.documents .strict text)
  return values.head?.getD .bad

end Value

end ProcUnits.Yaml
