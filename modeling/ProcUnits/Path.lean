import ProcUnits.Text.Split

/-!
Slash-separated paths, taken as texts; no file system is asked. The checks of paths and the places
of logs and files with variables are decided on them (section D of the specification).

* `Path.parts`: the parts of a path. Empty parts and parts `.` vanish, except a `.` that opens
  the path;
* `Path.Place` and `Path.normalize`: where the parts lead when `..` drops the part before it;
  at the root it has nothing to drop;
* `Path.escapes`: whether some `..` climbs over the start of the path;
* `Path.resolve`: a path taken from a base directory, unless it is absolute;
* `Path.join`, `Path.fileName?`, `Path.withFileName`: a file's name in its directory.
-/

namespace ProcUnits

/-- One part of a path. -/
inductive Path.Part where
  /-- The slash that opens an absolute path. -/
  | root
  /-- A `.` that opens a relative path. -/
  | here
  /-- A `..`. -/
  | up
  /-- Any other name. -/
  | name (n : String)
  deriving DecidableEq, Repr

/-- The place a path leads to: the names on the way, from the root if `rooted`. -/
structure Path.Place where
  rooted : Bool
  names : List String
  deriving DecidableEq, Repr, Inhabited

namespace Path

open Text (splitAt)

/-- The path starts at the root. -/
def isAbsolute (p : String) : Bool := p.toList.head? == some '/'

/-! ### Parts -/

/-- The part that a piece between slashes stands for, if it stands for one. -/
def partOf (piece : List Char) : Option Part :=
  if piece = [] ∨ piece = ['.'] then none
  else if piece = ['.', '.'] then some .up
  else some (.name (String.ofList piece))

/-- What opens the path, if the pieces do not show it. -/
def opening (p : List Char) : List Part :=
  match p with
  | ['.'] => [.here]
  | '.' :: '/' :: _ => [.here]
  | '/' :: _ => [.root]
  | _ => []

/-- The parts of a path in order. -/
def parts (p : String) : List Part :=
  opening p.toList ++ (splitAt '/' p.toList).filterMap partOf

/-! ### Places -/

/-- One more part from a place. -/
def Place.step (place : Place) : Part → Place
  | .root => ⟨true, []⟩
  | .here => place
  | .up => { place with names := place.names.dropLast }
  | .name n => { place with names := place.names ++ [n] }

/-- Where a path leads, judged by its text alone. -/
def normalize (p : String) : Place := (parts p).foldl Place.step ⟨false, []⟩

/-- The place lies in the directory, or is it. -/
def Place.isWithin (place dir : Place) : Bool :=
  place.rooted == dir.rooted && dir.names.isPrefixOf place.names

/-- Some `..` among the parts climbs over the point that lies `depth` names below it. -/
def escapesFrom : Nat → List Part → Bool
  | _, [] => false
  | 0, .up :: _ => true
  | n + 1, .up :: r => escapesFrom n r
  | n, .name _ :: r => escapesFrom (n + 1) r
  | n, _ :: r => escapesFrom n r

/-- Some `..` of the path climbs over its start. -/
def escapes (p : String) : Bool := escapesFrom 0 (parts p)

/-! ### Paths in a directory -/

/-- The path without the slashes at its end. -/
def dropSlashes (p : String) : String :=
  String.ofList (p.toList.reverse.dropWhile (· == '/')).reverse

/-- The path as it is meant in the directory `base`: an absolute path means itself, and where
no base is given every path does. -/
def resolve (base path : String) : String :=
  if isAbsolute path || base.isEmpty then path else dropSlashes base ++ "/" ++ path

/-- The path of `name` in the directory `dir`. A slash that ends `dir` is not doubled. -/
def join (dir name : String) : String :=
  if isAbsolute name || dir.isEmpty then name
  else if dir.toList.getLast? == some '/' then dir ++ name
  else dir ++ "/" ++ name

/-- The last part of the path, if it is a name. -/
def fileName? (p : String) : Option String :=
  match (parts p).getLast? with
  | some (.name n) => some n
  | _ => none

/-- The pieces of a path, last one first, without those at its end that stand for nothing. -/
def dropVoidEnd : List (List Char) → List (List Char)
  | [] => []
  | p :: ps => if (p = [] ∨ p = ['.']) ∧ ps ≠ [] then dropVoidEnd ps else p :: ps

/-- The path without its last part. -/
def parent (p : String) : String :=
  match dropVoidEnd (splitAt '/' p.toList).reverse with
  | [] => ""
  | _ :: before =>
    match dropVoidEnd before with
    | [] => ""
    | [[]] => "/"
    | pieces => String.ofList (['/'].intercalate pieces.reverse)

/-- The path of `name` in the directory that holds the file at `p`. -/
def withFileName (p name : String) : String :=
  if (fileName? p).isSome then join (parent p) name else join p name

end Path

end ProcUnits
