import ProcUnits.Glob.Search
import ProcUnits.Text.Utf8

/-!
Patterns for file names. The files of an application are removed by such patterns (section 4.7 of
the specification).

A pattern is read octet by octet: `*` stands for any run without a slash, `?` for any one
octet but the slash, `[...]` for one octet of a class (of the others, after `!` or `^`),
`{a,b}` for one of its options, a backslash takes away the meaning of the next octet, and each
`!` that opens the pattern turns the answer around. A pattern that breaks off inside a class,
an escape or a pair of braces matches nothing from there on, turned around or not.

* `Glob.isMatch`: whether a pattern, given as a text, matches a name.
-/

namespace ProcUnits.Glob

/-- Drops a `**` with its slash that opens the pattern: before a name without a slash it stands
for no directory. One alone is kept after a mark that turns the answer around. -/
def dropDirectories (marked : Bool) (pattern : List Char) : List Char :=
  match pattern with
  | '*' :: '*' :: r =>
    match dropRepeated r with
    | '/' :: rest => if marked && '/' :: rest == r then pattern else rest
    | _ => pattern
  | _ => pattern

/-- The verdict of a pattern without marks on a name. -/
def verdict (pattern name : List Char) : Verdict :=
  if pattern.contains '{' then Search.verdict pattern name else Piece.run (pieces pattern) name

/-- The pattern matches the name. -/
def isMatch (pattern name : String) : Bool :=
  let octets := Text.Utf8.octets pattern
  let marks := octets.takeWhile (· == '!')
  let body := dropDirectories (!marks.isEmpty) (octets.dropWhile (· == '!'))
  match verdict body (Text.Utf8.octets name) with
  | .invalid => false
  | .yes => marks.length % 2 == 0
  | .no => marks.length % 2 == 1

end ProcUnits.Glob
