import ProcUnits.CommandLine
import ProcUnits.Settings

/-!
The command line of the exporter (section B.4 of the specification).

* `Export`: what the command line asks for; `Export.ofWords` reads it;
* `Export.chooseSystem`: the init system that is meant;
* `programName`: the name under which a program is called.
-/

namespace ProcUnits

open UnitFile (InitSystem)

/-- What the exporter is to do. -/
structure CommandLine.Export where
  appName : String
  procfile : Option String := none
  /-- The service file is only checked. -/
  dryStart : Bool := false
  /-- The application is not checked. -/
  disableValidation : Bool := false
  /-- The application is removed. -/
  uninstall : Bool := false
  system : Option InitSystem := none
  /-- The path of the settings. -/
  settings : String := Settings.defaultPath
  deriving DecidableEq, Repr

namespace CommandLine

namespace Export

/-- The variable that names the settings (section B.3). -/
def settingsVariable : String := "INIT_EXPORTER_CONFIG"

/-- The arguments of the exporter. -/
def arguments : List Argument := [
  { key := "<APP_NAME>", effect := .takes .text, required := true },
  { key := "--procfile", letter := some 'p', names := ["procfile"], effect := .takes .path },
  { key := "--dry-start", letter := some 'd', names := ["dry-start"], effect := .mark },
  { key := "--disable-validation", letter := some 'D', names := ["disable-validation"],
    effect := .mark },
  { key := "--uninstall", letter := some 'u', names := ["uninstall", "clear"], effect := .mark },
  { key := "--format", letter := some 'f', names := ["format"],
    effect := .takes (.choice [InitSystem.systemd.name, InitSystem.upstart.name]) },
  { key := "--config", names := ["config"], effect := .takes .path },
  helpOption, versionOption]

/-- What the values ask for. -/
def ofGiven (g : Given) : Export where
  appName := g.value "<APP_NAME>"
  procfile := g.value? "--procfile"
  dryStart := g.isOn "--dry-start"
  disableValidation := g.isOn "--disable-validation"
  uninstall := g.isOn "--uninstall"
  system := (g.value? "--format").bind InitSystem.ofName?
  settings := (g.value? "--config").getD Settings.defaultPath

/-- What the words ask for. The value of the variable counts where they do not name the
settings. -/
def ofWords (environment : Option String) (words : List String) : Except Refusal Export :=
  (CommandLine.read arguments (environment.toList.map ("--config", ·)) words).map ofGiven

/-- The init system that is meant: the one that is asked for, or else the one that the program is
named after, or else one whose control program is there (section B.4). -/
def chooseSystem (asked : Option InitSystem) (program : String) (hasProgram : String → Bool) :
    Option InitSystem :=
  match asked with
  | some system => some system
  | none =>
    if program == "systemd-exporter" then some .systemd
    else if program == "upstart-exporter" then some .upstart
    else if hasProgram "systemctl" then some .systemd
    else if hasProgram "initctl" then some .upstart
    else none

end Export

/-- The name of a program that is called by a path. -/
def programName (path : Option String) : String := (path.bind Path.fileName?).getD ""

end CommandLine

end ProcUnits
