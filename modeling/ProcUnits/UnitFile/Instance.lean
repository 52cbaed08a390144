import ProcUnits.Application

/-!
The instances of an application's services (section 4.6 of the specification). Each of them has a
unit and a helper script of its own.

* `Instance`: one instance, with its names and paths;
* `instances`: all instances of an application, in the order of its services;
* `stems`: the names of their units. `stems_eq` says that they are those of the instances.
-/

namespace ProcUnits.UnitFile

/-- One instance of a service, whose helper script lies in a directory. -/
structure Instance where
  member : Application.Member
  /-- The number of the instance, if the service has several. -/
  index : Option Nat
  helperDir : String
  deriving Repr

/-- The name of a unit without its extension. -/
def stem (app instanceName : String) : String := app ++ "_" ++ instanceName

/-- The directory for the logs of an application (section C.7). -/
def logDir (a : Application) : String := "/var/log/" ++ a.name

namespace Instance

/-- The name of the service, with the number of the instance. -/
def name (i : Instance) : String := Options.instanceName i.member.service.name i.index

/-- The name of the unit without its extension. -/
def stem (i : Instance) : String := UnitFile.stem i.member.app.name i.name

/-- The path of the helper script (section D). -/
def helperPath (i : Instance) : String := Path.join i.helperDir (i.stem ++ ".sh")

/-- The file that takes what the instance prints. -/
def consoleLog (i : Instance) : String := logDir i.member.app ++ "/" ++ i.name ++ ".log"

end Instance

/-- The instances of one service. -/
def instancesOf (helperDir : String) (m : Application.Member) : List Instance :=
  m.options.instances.map fun index => { member := m, index, helperDir }

/-- All instances of an application (section 4.6). -/
def instances (a : Application) (helperDir : String) : List Instance :=
  a.members.flatMap (instancesOf helperDir)

/-- The names of all units of an application, without their extension. -/
def stems (a : Application) : List String :=
  a.services.flatMap fun s => (s.options.instanceNames s.name).map (stem a.name)

/-- The units have the names of the instances, wherever the helpers are. -/
theorem stems_eq (a : Application) (helperDir : String) :
    stems a = (instances a helperDir).map Instance.stem := by
  simp [stems, instances, instancesOf, Application.members, List.map_flatMap, List.flatMap_map,
    Options.instanceNames, Instance.stem, Instance.name, Function.comp_def]

end ProcUnits.UnitFile
