import ProcUnits.Host.OsError
import ProcUnits.UnitFile.Upstart

/-!
Why an application cannot be installed or removed (sections 7 and B.2 of the specification). Each
error is a cause; `Error.message` has the words.
-/

namespace ProcUnits.Install

open UnitFile (Upstart.Release)

/-- An error that ends an installation or a removal. What was done before it stays. -/
inductive Error where
  /-- The version of upstart is too old for services that a signal reloads. -/
  | noReloadSignal (found : Upstart.Release)
  /-- Upstart says something else than its version. -/
  | unknownRelease (output : String)
  | notInstalled (app : String)
  /-- A command could not be started. -/
  | notStarted (command reason : String)
  /-- A command did not do its work. -/
  | commandFailed (command : String) (status : Int) (output : String)
  | io (path : String) (error : Host.OsError)
  deriving DecidableEq, Repr

/-- The text of an error. -/
def Error.message : Error → String
  | .noReloadSignal v =>
    "Upstart " ++ v.text ++ " doesn't support reload signal. Upstart "
      ++ Upstart.Release.firstWithReload.text ++ " is required."
  | .unknownRelease o => s!"can't parse upstart version from \"{o}\""
  | .notInstalled a => s!"application {a} is not installed"
  | .notStarted c r => s!"can't execute {c}: {r}"
  | .commandFailed c s o => s!"{c} exited with code {s}: {o}"
  | .io p e => s!"{p}: {e.message}"

end ProcUnits.Install
