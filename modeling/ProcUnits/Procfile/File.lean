import ProcUnits.Host
import ProcUnits.Procfile.Read

/-!
Reading the service file at a path (section C.1 of the specification). Only a file with content is
read, and the log tells how far the reading has come.
-/

namespace ProcUnits.Procfile

open Host (Attempt FileTree OsError)

/-- The octets of a service file (section C.1). -/
def fileBytes (files : FileTree) (path : String) : Except Error (List UInt8) :=
  match files.find path with
  | .error .notFound => .error (.file path .missing)
  | .error e => .error (.io path e)
  | .ok (_, .directory) => .error (.file path .notRegular)
  | .ok (_, .file content _) =>
    if content.isEmpty then .error (.file path .empty)
    else (files.read path).mapError (.io path)

/-- The application of the service file at a path (section C.1). -/
def load (path : String) (d : Defaults) : Attempt Error Application := do
  Host.emit .debug s!"Processing file {path}"
  let bytes ← fileBytes (← get).files path
  let text ← decode bytes
  let version := Version.detect text
  Host.emit .debug s!"Detected procfile v{version.number}"
  Host.emit .debug s!"Parsing procfile as v{version.number}"
  ofText version text d

end ProcUnits.Procfile
