import ProcUnits.CommandLine.Convert
import ProcUnits.CommandLine.Export
import ProcUnits.Procfile.Convert
import ProcUnits.Procfile.File
import ProcUnits.Settings.Problem
import ProcUnits.Settings.Reading
import ProcUnits.Validation

/-!
The two programs: the exporter, which installs and removes applications, and the converter, which
brings legacy service files into the new format (sections B.4 and C.3 of the specification).

* `Failure`: why a program gives up;
* `readApplication`: the application of a service file, of a format that the settings take and
  without problems;
* `runExport`, `runConvert`: the programs.
-/

namespace ProcUnits

open Host (Attempt)
open UnitFile (InitSystem)

/-- Why a program gives up. -/
inductive Failure where
  | noProcfile
  | notSuperuser
  | settings (error : Settings.LoadError)
  | settingsProblems (problems : List Settings.Problem)
  /-- The log cannot be opened. -/
  | log (error : Host.OsError)
  | procfile (error : Procfile.Error)
  /-- The settings do not take files of the format. -/
  | disabled (version : Version)
  | problems (problems : List Validation.Problem)
  /-- No init system is asked for, and none is found. -/
  | noSystem
  /-- The directory for units is missing. -/
  | noUnitDir (path : String) (system : InitSystem)
  | install (error : Install.Error)
  /-- The file to convert is in the new format already. -/
  | alreadyConverted
  | unwritable (path : String) (error : Host.OsError)
  deriving DecidableEq, Repr

namespace Failure

/-- A title with a line for each problem. -/
def list (title : String) (lines : List String) : String :=
  title ++ String.join (lines.map ("\n  - " ++ ·))

/-- The text of a failure. -/
def message : Failure → String
  | .noProcfile => "You should define path to procfile"
  | .notSuperuser => "This utility must have superuser privileges (root)"
  | .settings e => e.message
  | .settingsProblems ps => list "Errors while config validation:" (ps.map (·.message))
  | .log _ => "can't initialize logger"
  | .procfile e => e.message
  | .disabled v => s!"Proc format version {v.number} support is disabled"
  | .problems ps => list "Errors while application validation:" (ps.map (·.message))
  | .noSystem => "Can't find init provider"
  | .noUnitDir p s => s!"Target directory {p} for {s.name} does not exist"
  | .install e => e.message
  | .alreadyConverted => "Given procfile already converted to v2 format"
  | .unwritable p _ => s!"can't write {p}"

/-- What lies behind a failure, where its text does not say it. -/
def cause : Failure → Option String
  | .settings (.malformed _ fault) => some fault.message
  | .log e => some e.message
  | .unwritable _ e => some e.message
  | _ => none

/-- The text of a failure with what lies behind it. -/
def fullMessage (f : Failure) : String := ": ".intercalate (f.message :: f.cause.toList)

end Failure

/-! ### Applications -/

/-- How closely an application is looked at. -/
structure Checks where
  dryStart : Bool := false
  disableValidation : Bool := false
  deriving DecidableEq, Repr

/-- Problems of the application matter. Only before a real installation they may not. -/
def Checks.shouldValidate (c : Checks) : Bool := c.dryStart || !c.disableValidation

/-- The application of a service file. -/
def readApplication (s : Settings) (app procfile : String) (checks : Checks) :
    Attempt Failure Application := do
  let a ← (Procfile.load procfile (s.defaultsFor app)).adapt Failure.procfile
  if !s.accepts a.version then throw (.disabled a.version)
  if checks.shouldValidate then
    let problems := Validation.validate a
    if !problems.isEmpty then throw (.problems problems)
  else Host.emit .debug s!"Validation of {a.name} is disabled"
  pure a

/-! ### The exporter -/

/-- Loads settings without problems (section B.3). -/
def loadSettings (path : String) : Attempt Failure Settings := do
  let h ← get
  match Settings.load h.files path with
  | .error e => throw (.settings e)
  | .ok s =>
    let problems := s.problems
      { hasUser := h.hasUser, hasGroup := h.hasGroup, isDir := h.files.isDir }
    if !problems.isEmpty then throw (.settingsProblems problems)
    pure s

/-- Opens the log. -/
def openLog (c : Host.Log.Config) : Attempt Failure Unit := do
  match c.logger (← get).files with
  | .error e => throw (.log e)
  | .ok (logger, files) => modify fun h => { h with logger, files }

/-- How applications are installed. The directory for units has to be there. -/
def findInstaller (s : Settings) (asked : Option InitSystem) (program : String) :
    Attempt Failure Install.Installer := do
  let h ← get
  match CommandLine.Export.chooseSystem asked program h.hasProgram with
  | none => throw .noSystem
  | some system =>
    if !h.files.isDir (s.unitDir system) then throw (.noUnitDir (s.unitDir system) system)
    pure (s.installer system)

/-- Installs the application of a service file, or only looks whether it could be (section B.4). -/
def installProcfile (s : Settings) (args : CommandLine.Export) (program procfile : String) :
    Attempt Failure Unit := do
  let a ← readApplication s args.appName procfile ⟨args.dryStart, args.disableValidation⟩
  if args.dryStart then Host.emit .info s!"Procfile {procfile} for {a.name} is valid"
  else
    let installer ← findInstaller s args.system program
    let (a, result) ← installer.install a
    if let .error e := result then throw (.install e)
    Host.emit .info s!"User {← Host.currentUser} installed service {a.name}"

/-- Removes an application. -/
def uninstallApplication (s : Settings) (args : CommandLine.Export) (program : String) :
    Attempt Failure Unit := do
  let a := s.bareApplication args.appName
  let installer ← findInstaller s args.system program
  (installer.uninstall a.name).adapt Failure.install
  Host.emit .info s!"User {← Host.currentUser} uninstalled service {a.name}"

/-- Runs the exporter, called under the name `program` (section B.4). -/
def runExport (args : CommandLine.Export) (program : String) : Attempt Failure Unit := do
  if !args.uninstall && args.procfile.isNone then throw .noProcfile
  if !args.dryStart && (← get).userId != 0 then throw .notSuperuser
  let s ← loadSettings args.settings
  openLog s.logConfig
  match args.uninstall, args.procfile with
  | false, some procfile => installProcfile s args program procfile
  | _, _ => uninstallApplication s args program

/-! ### The converter -/

/-- The permission bits of a new file. -/
def newFileMode : Nat := 0o666

/-- Runs the converter (section C.3). The result is the text in the new format, unless it replaces
the service file. -/
def runConvert (args : CommandLine.Convert) : Attempt Failure (Option String) := do
  let s ←
    match args.settings with
    | none => pure {}
    | some path =>
      match Settings.load (← get).files path with
      | .ok s => pure s
      | .error e => throw (.settings e)
  let defaults := s.defaultsFor args.appName
  let a ← (Procfile.load args.procfile defaults).adapt Failure.procfile
  if a.version != .v1 then throw .alreadyConverted
  match Procfile.convert a defaults with
  | .error e => throw (.procfile e)
  | .ok text =>
    if args.inPlace then
      (Host.onFiles (·.write args.procfile (Text.Utf8.encode text) newFileMode)).adapt
        (Failure.unwritable args.procfile)
      pure none
    else pure (some text)

end ProcUnits
