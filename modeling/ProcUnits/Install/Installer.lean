import ProcUnits.Install.Control
import ProcUnits.Install.Files

/-!
Installing an application: its units and scripts are written and the init system is told. Removing
it: all files that are named after it go. This is the exporter of section 4.7 of the specification;
the names of the files are those of section D.

* `Installer`: where units and scripts are, and what the init system is told;
* `Installer.appUnitPath`, `unitPath`, `reloaderPath`: the paths of the files;
* `Installer.outputs`: the files of an application with their texts;
* `Installer.install`: the installation, after the removal of an earlier one;
* `Installer.uninstall`: the removal. Whether there is anything to remove, the file of the
  application's unit says.
-/

namespace ProcUnits.Install

open Host (Act Attempt FileTree)
open UnitFile (InitSystem Instance)

/-- Where and how applications are installed (section C.5). -/
structure Installer where
  system : InitSystem
  /-- The directory for scripts. -/
  helperDir : String
  /-- The directory in which the init system looks for units. -/
  unitDir : String
  /-- Applications are started with the host. -/
  autoStart : Bool := true
  /-- The init system is told of new units. -/
  reload : Bool := true
  deriving DecidableEq, Repr

namespace Installer

/-! ### Paths -/

/-- The path of a unit. -/
def unitPath (i : Installer) (stem : String) : String :=
  Path.join i.unitDir (i.system.unitName stem)

/-- The path of an application's unit. -/
def appUnitPath (i : Installer) (app : String) : String := i.unitPath app

/-- The path of the script that reloads an application (section D). -/
def reloaderPath (i : Installer) (app : String) : String :=
  Path.join i.helperDir (app ++ "-reload.sh")

/-- The pattern that the names of an application's service units match (section 4.7). -/
def unitPattern (i : Installer) (app : String) : String := i.system.unitName (app ++ "_*")

/-- The pattern that the names of an application's scripts match (section 4.7). -/
def helperPattern (app : String) : String := app ++ "_*.sh"

/-- There is a unit of the application (section 4.7). -/
def isInstalled (i : Installer) (files : FileTree) (app : String) : Bool :=
  files.isPresent (i.appUnitPath app)

/-! ### Removal -/

/-- Removes all files that are named after an application. -/
def sweep (i : Installer) (app : String) : Attempt Error Unit := do
  let _ ← removeFile (i.appUnitPath app)
  let units ← removeMatching i.unitDir (i.unitPattern app)
  Host.emit .debug s!"Removed {units.length} service units"
  let helpers ← removeMatching i.helperDir (helperPattern app)
  Host.emit .debug s!"Removed {helpers.length} helpers"
  let _ ← removeFile (i.reloaderPath app)

/-- Does not start an application with the host any more, if it was. -/
def withdraw (i : Installer) (app : String) : Attempt Error Unit := do
  if i.autoStart then
    disable i.system app
    Host.emit .debug s!"Service {app} disabled"

/-- Tells the init system of changed units, and the log of what was done. -/
def conclude (i : Installer) (message : String) : Attempt Error Unit := do
  if i.reload then reloadUnits i.system
  Host.emit .info message

/-- Removes an application of this name (section 4.7). -/
def uninstall (i : Installer) (app : String) : Attempt Error Unit := do
  if !i.isInstalled (← get).files app then throw (.notInstalled app)
  i.withdraw app
  i.sweep app
  i.conclude s!"Application {app} uninstalled"

/-! ### Files -/

/-- A file to be written. -/
structure Output where
  path : String
  text : String
  mode : Nat
  deriving DecidableEq, Repr

/-- Writes a file. -/
def Output.write (o : Output) : Attempt Error Unit := writeFile o.path o.text o.mode

/-- The script that reloads an application, if one is needed. -/
def reloader? (i : Installer) (date : String) (a : Application) : Option Output :=
  (i.system.reloadHelper date a).map fun script => ⟨i.reloaderPath a.name, script, scriptMode⟩

/-- The unit of an application. -/
def appOutput (i : Installer) (date : String) (a : Application) : Output :=
  ⟨i.appUnitPath a.name, i.system.appUnit date a, unitMode⟩

/-- The unit and the script of an instance. -/
def instanceOutputs (i : Installer) (date : String) (job : Instance) : List Output :=
  [⟨i.unitPath job.stem, i.system.serviceUnit date job, unitMode⟩,
    ⟨job.helperPath, i.system.helper date job, scriptMode⟩]

/-- All units of an application with their scripts. -/
def unitOutputs (i : Installer) (date : String) (a : Application) : List Output :=
  i.appOutput date a :: (UnitFile.instances a i.helperDir).flatMap (i.instanceOutputs date)

/-- All files of an application (section 6). Its unit names the script that reloads it. -/
def outputs (i : Installer) (date : String) (a : Application) : List Output :=
  (i.reloader? date a).toList
    ++ i.unitOutputs date { a with reloadHelper := (i.reloader? date a).map (·.path) }

/-! ### Installation -/

/-- Makes room for the application (section 4.7). -/
def clear (i : Installer) (a : Application) : Attempt Error Unit := do
  checkSupport i.system a
  if i.isInstalled (← get).files a.name then
    Host.emit .debug s!"Application {a.name} is already installed, removing it first"
    i.uninstall a.name
  makeDirs i.helperDir

/-- Writes the script that reloads the application, if one is needed. The result is its
path. -/
def writeReloader (i : Installer) (a : Application) : Attempt Error (Option String) := do
  match i.reloader? (← get).date a with
  | none => pure none
  | some script =>
    script.write
    pure (some script.path)

/-- Starts the application with the host from now on, if that is wished. -/
def announce (i : Installer) (app : String) : Attempt Error Unit := do
  if i.autoStart then
    enable i.system app
    Host.emit .debug s!"Service {app} enabled"

/-- Writes all units with their scripts, and tells the init system of them. -/
def activate (i : Installer) (a : Application) : Attempt Error Unit := do
  (i.unitOutputs (← get).date a).forM Output.write
  i.announce a.name
  i.conclude s!"Application {a.name} installed"

/-- Installs an application (section 4.7). The result has the path of its reloading script from the
moment on when that is written, whether or not the rest succeeds. -/
def install (i : Installer) (a : Application) : Act (Application × Except Error Unit) := do
  match ← (i.clear a).run with
  | .error e => pure (a, .error e)
  | .ok () =>
    match ← (i.writeReloader a).run with
    | .error e => pure ({ a with reloadHelper := none }, .error e)
    | .ok path =>
      let a := { a with reloadHelper := path }
      pure (a, ← (i.activate a).run)

end Installer

end ProcUnits.Install
