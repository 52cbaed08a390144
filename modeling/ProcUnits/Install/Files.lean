import ProcUnits.Glob
import ProcUnits.Host
import ProcUnits.Install.Error

/-!
Writing and removing the generated files: what the exporter asks of the file layer (section 6 of the
specification).

* `writeFile`: a file is written beside its place and then moved there, so that nobody sees
  half of it;
* `removeFile`, `removeMatching`: what is not there needs no removal. Of the entries of a
  directory only files are removed.
-/

namespace ProcUnits.Install

open Host (Attempt FileTree Name OsError)

/-- The permission bits of units. -/
def unitMode : Nat := 0o644

/-- The permission bits of scripts. -/
def scriptMode : Nat := 0o755

/-- Does an operation on the file at a path. -/
def onFile (path : String) (f : FileTree → Except OsError FileTree) : Attempt Error Unit :=
  (Host.onFiles f).adapt (Error.io path)

/-- Where a file is written before it is moved to its place. -/
def draftPath (path : String) : String :=
  Path.withFileName path ("." ++ (Path.fileName? path).getD "" ++ ".tmp")

/-- Writes a file with exactly these permission bits (section 6). -/
def writeFile (path text : String) (mode : Nat) : Attempt Error Unit := do
  let draft := draftPath path
  onFile draft (·.write draft (Text.Utf8.encode text) mode)
  onFile draft (·.setMode draft mode)
  onFile path (·.move draft path)
  Host.emit .debug s!"Wrote {path}"

/-- Makes a directory with those above it. -/
def makeDirs (path : String) : Attempt Error Unit := onFile path (·.makeDirs path)

/-- Removes a file. The result is whether there was one. -/
def removeFile (path : String) : Attempt Error Bool := do
  match (← get).files.remove path with
  | .ok files =>
    modify fun h => { h with files }
    Host.emit .debug s!"Removed {path}"
    pure true
  | .error .notFound => pure false
  | .error e => throw (.io path e)

/-- The names that match a pattern. One that is no text is passed over. -/
def matchingNames (pattern : String) (names : List Name) : List String :=
  (names.filterMap Name.text?).filter (Glob.isMatch pattern)

/-- The paths of the files in a directory whose names match a pattern. -/
def matchingFiles (files : FileTree) (dir pattern : String) : Except OsError (List String) :=
  match files.names dir with
  | .ok names =>
    .ok (((matchingNames pattern names).map (Path.join dir)).filter files.isFile)
  | .error .notFound => .ok []
  | .error e => .error e

/-- Removes the files in a directory whose names match a pattern (section 6). The result is their
paths. -/
def removeMatching (dir pattern : String) : Attempt Error (List String) := do
  match matchingFiles (← get).files dir pattern with
  | .error e => throw (.io dir e)
  | .ok paths => paths.filterM removeFile

end ProcUnits.Install
