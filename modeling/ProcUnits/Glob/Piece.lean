/-!
The elements of patterns for file names, and the matching of patterns without braces.

Without braces a pattern is a sequence of elements, which a name matches or not whatever the
order in which the ways to match are tried.

* `Glob.Piece`: one element of a pattern; `Glob.pieces` reads them;
* `Glob.Piece.run`: a sequence of elements held against a name, with a `Verdict`.
-/

namespace ProcUnits.Glob

/-- One element of a pattern. -/
inductive Piece where
  /-- This octet. -/
  | octet (c : Char)
  /-- Any octet but the slash. -/
  | any
  /-- Any run of octets without a slash. -/
  | star
  /-- An octet in one of the ranges, or in none of them if `negated`. -/
  | oneOf (negated : Bool) (ranges : List (Char × Char))
  /-- The place where the pattern breaks off. -/
  | broken
  deriving DecidableEq, Repr

/-- The outcome of holding a pattern against a name. -/
inductive Verdict where
  | yes
  | no
  /-- The pattern breaks off where it was needed. -/
  | invalid
  deriving DecidableEq, Repr

/-! ### Matching -/

/-- Leaves out as few octets as possible, none of them a slash, before `rest` gives another
answer than `no`. -/
def runStar (rest : List Char → Verdict) : List Char → Verdict
  | [] => rest []
  | c :: s =>
    match rest (c :: s) with
    | .no => if c = '/' then .no else runStar rest s
    | v => v

/-- The octet is one of the class. -/
def isOneOf (negated : Bool) (ranges : List (Char × Char)) (c : Char) : Bool :=
  ranges.any (fun r => r.1 ≤ c && c ≤ r.2) != negated

/-- Holds the elements against the octets of a name. -/
def Piece.run : List Piece → List Char → Verdict
  | [], [] => .yes
  | [], _ :: _ => .no
  | .star :: ps, s => runStar (Piece.run ps) s
  | _ :: _, [] => .no
  | .octet d :: ps, c :: s => if c = d then Piece.run ps s else .no
  | .any :: ps, c :: s => if c = '/' then .no else Piece.run ps s
  | .oneOf negated ranges :: ps, c :: s =>
    if isOneOf negated ranges c then Piece.run ps s else .no
  | .broken :: _, _ :: _ => .invalid

/-! ### Reading a pattern -/

/-- The octet that an escaped octet stands for. -/
def unescape : Char → Char
  | 'b' => '\x08'
  | 'n' => '\n'
  | 'r' => '\r'
  | 't' => '\t'
  | c => c

/-- The first octet of a class member, and what follows it. -/
def classOctet : List Char → Option (Char × List Char)
  | [] => none
  | '\\' :: c :: r => some (unescape c, r)
  | ['\\'] => none
  | c :: r => some (c, r)

/-- The ranges of a class up to its closing bracket. A bracket that comes first is a member.
The number bounds the members. -/
def classRanges : Nat → Bool → List Char → Option (List (Char × Char) × List Char)
  | 0, _, _ => none
  | _ + 1, _, [] => none
  | n + 1, first, c :: r =>
    if c = ']' ∧ !first then some ([], r)
    else do
      let (low, r) ← classOctet (c :: r)
      let (high, r) ←
        match r with
        | '-' :: d :: r' => if d = ']' then some (low, r) else classOctet (d :: r')
        | _ => some (low, r)
      let (ranges, r) ← classRanges n false r
      some ((low, high) :: ranges, r)

/-- A class of octets. -/
structure OctetClass where
  negated : Bool
  ranges : List (Char × Char)

/-- The class after an opening bracket. -/
def classOf (r : List Char) : Option (OctetClass × List Char) :=
  let (negated, body) : Bool × List Char :=
    match r with
    | '!' :: b => (true, b)
    | '^' :: b => (true, b)
    | b => (false, b)
  (classRanges (body.length + 1) true body).map fun p => (⟨negated, p.1⟩, p.2)

/-- Drops the repetitions of `**` that follow one after a slash each. -/
def dropRepeated : List Char → List Char
  | '/' :: '*' :: '*' :: r => dropRepeated r
  | r => r

/-- The elements of a pattern. The number bounds them. -/
def piecesFrom : Nat → List Char → List Piece
  | 0, _ => [.broken]
  | _ + 1, [] => []
  | n + 1, '*' :: '*' :: r => .star :: piecesFrom n (dropRepeated r)
  | n + 1, '*' :: r => .star :: piecesFrom n r
  | n + 1, '?' :: r => .any :: piecesFrom n r
  | n + 1, '[' :: r =>
    match classOf r with
    | none => [.broken]
    | some (k, r) => .oneOf k.negated k.ranges :: piecesFrom n r
  | _ + 1, ['\\'] => [.broken]
  | n + 1, '\\' :: d :: r => .octet (unescape d) :: piecesFrom n r
  | n + 1, c :: r => .octet c :: piecesFrom n r

/-- The elements of a pattern without braces. -/
def pieces (pattern : List Char) : List Piece := piecesFrom (pattern.length + 1) pattern

end ProcUnits.Glob
