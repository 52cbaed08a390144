import ProcUnits.Application
import ProcUnits.Text.Blank

/-!
Which format a service file is in (section 4.1 of the specification). A file is a document with
sections if some line of it says `version: 2`, wherever that line stands; every other file is a
legacy one.

* `followsLine`: the blanks after a text, up to the end of its line;
* `isVersionMark`: a line that starts here says `version: 2`. Blanks and line breaks may stand
  between the colon and the number;
* `Version.detect`: the format of a text.
-/

namespace ProcUnits

namespace Procfile

/-- Only blanks follow on the line. -/
def followsLine : List Char → Bool
  | [] => true
  | c :: r => c == '\n' || (Text.isBlank c && followsLine r)

/-- The text after a word, if it starts with the word. -/
def afterWord : List Char → List Char → Option (List Char)
  | [], s => some s
  | _ :: _, [] => none
  | w :: ws, c :: s => if w = c then afterWord ws s else none

/-- The line that starts here, after some blanks, says `version: 2` (section 4.1). -/
def isVersionMark (s : List Char) : Bool :=
  match afterWord "version:".toList (Text.trimStart s) with
  | none => false
  | some rest =>
    match Text.trimStart rest with
    | '2' :: r => followsLine r
    | _ => false

/-- Some line after the next line feed says `version: 2`. -/
def laterVersionMark : List Char → Bool
  | [] => false
  | c :: r => (c == '\n' && isVersionMark r) || laterVersionMark r

end Procfile

/-- The format of a service file (section 4.1). -/
def Version.detect (text : List Char) : Version :=
  if Procfile.isVersionMark text || Procfile.laterVersionMark text then .v2 else .v1

end ProcUnits
