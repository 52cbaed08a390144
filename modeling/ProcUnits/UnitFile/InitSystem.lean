import ProcUnits.UnitFile.Upstart

/-!
The init systems that units are made for, and what each of them makes of an application. There are
these two and no others (sections 4.6 and 9 of the specification).
-/

namespace ProcUnits.UnitFile

/-- An init system. -/
inductive InitSystem where
  | systemd
  | upstart
  deriving DecidableEq, Repr, Inhabited

namespace InitSystem

/-- The name of an init system. -/
def name : InitSystem → String
  | .systemd => "systemd"
  | .upstart => "upstart"

/-- The init system of a name. -/
def ofName? (s : String) : Option InitSystem :=
  if s = "systemd" then some .systemd else if s = "upstart" then some .upstart else none

/-- What is said of a name that is no init system's. -/
def unknownMessage (s : String) : String :=
  s!"unknown format \"{s}\" (expected systemd or upstart)"

/-- The file name of a unit (`UnitName` in section 4.6). -/
def unitName : InitSystem → String → String
  | .systemd => Systemd.unitName
  | .upstart => Upstart.unitName

/-- The text of an application's unit (`RenderAppTemplate` in section 4.6). -/
def appUnit (system : InitSystem) (date : String) (a : Application) : String :=
  match system with
  | .systemd => (Systemd.appTemplate date a).render
  | .upstart => (Upstart.appTemplate date a).render

/-- The text of an instance's unit (`RenderServiceTemplate` in section 4.6). -/
def serviceUnit (system : InitSystem) (date : String) (i : Instance) : String :=
  match system with
  | .systemd => (Systemd.serviceTemplate date i).render
  | .upstart => (Upstart.serviceTemplate date i).render

/-- The text of an instance's helper script (`RenderHelperTemplate` in section 4.6). Only systemd
changes to the directory of the service by itself. -/
def helper (system : InitSystem) (date : String) (i : Instance) : String :=
  match system with
  | .systemd => UnitFile.helper "systemd" date false i
  | .upstart => UnitFile.helper "upstart" date true i

/-- The text of the script that reloads the application, if one is needed
(`RenderReloadHelperTemplate` in section 4.6). Upstart reloads its jobs by itself. -/
def reloadHelper (system : InitSystem) (date : String) (a : Application) : Option String :=
  match system with
  | .systemd => Systemd.reloadHelper date a
  | .upstart => none

end InitSystem

end ProcUnits.UnitFile
