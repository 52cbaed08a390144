import ProcUnits.Procfile.Document
import ProcUnits.Procfile.Legacy
import ProcUnits.Procfile.Version
import ProcUnits.Resolution

/-!
Reading a service file in either format: the way from octets to an application in section 2 of the
specification.

* `draftOfText`: the application that a text of a format declares;
* `ofText`, `ofBytes`: the application with all options of its services decided. A legacy file
  shares no options among its services.
-/

namespace ProcUnits.Procfile

/-- The application that a text declares. -/
def draftOfText (version : Version) (text : List Char) (d : Defaults) : Except Error Draft :=
  match version with
  | .v1 => do return { app := .ofDefaults .v1 d (← readLegacy text) }
  | .v2 =>
    match Yaml.Value.load text with
    | .ok doc => readDocument doc d
    | .error c => .error (.notYaml c)

/-- The application of a draft. -/
def Draft.resolve (draft : Draft) (d : Defaults) : Application :=
  draft.app.resolve draft.shared d

/-- The application of a text in a known format. -/
def ofText (version : Version) (text : List Char) (d : Defaults) : Except Error Application :=
  do return (← draftOfText version text d).resolve d

/-- The text of a file. -/
def decode (bytes : List UInt8) : Except Error (List Char) :=
  (Text.Utf8.decode bytes).mapError .notUtf8

/-- The application of a file's bytes. -/
def ofBytes (bytes : List UInt8) (d : Defaults) : Except Error Application := do
  let text ← decode bytes
  ofText (Version.detect text) text d

end ProcUnits.Procfile
