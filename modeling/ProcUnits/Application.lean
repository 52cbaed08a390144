import ProcUnits.Options
import ProcUnits.Path

/-!
An application and the services it is made of: the model that both formats of service files are read
into (section 3 of the specification).

* `Defaults`: what holds for an application where its file says nothing;
* `Service`, `Application`: the services with their commands and options;
* `Application.Member`: a service seen together with its application. Its directory and the
  paths of its files are determined by both.
-/

namespace ProcUnits

/-- What the settings of the host give to one application (`Config` in section 3). -/
structure Defaults where
  name : String := ""
  user : String := ""
  group : String := ""
  workingDir : String := ""
  /-- Turns respawning on for every service, whatever its file says. -/
  respawnEnabled : Bool := false
  respawnInterval : Int := 0
  respawnCount : Int := 0
  respawnDelay : Int := 0
  killTimeout : Int := 0
  fileLimit : Int := 0
  processLimit : Int := 0
  memoryLimit : Int := 0
  deriving DecidableEq, Repr, Inhabited

/-- The formats of a service file (section 4.1). -/
inductive Version where
  /-- A line for each service. -/
  | v1
  /-- A document with sections. -/
  | v2
  deriving DecidableEq, Repr, Inhabited

/-- The number of a version. -/
def Version.number : Version → Nat
  | .v1 => 1
  | .v2 => 2

/-- One service of an application. -/
structure Service where
  name : String
  command : String
  /-- Runs before the command. -/
  pre : Option String := none
  /-- Runs after the command. -/
  post : Option String := none
  options : Options := {}
  deriving DecidableEq, Repr, Inhabited

/-- The run level in which an application runs unless its file names another. -/
def defaultRunLevel : Int := 3

/-- An application (section 3). -/
structure Application where
  name : String
  user : String
  group : String
  startLevel : Int := defaultRunLevel
  stopLevel : Int := defaultRunLevel
  /-- The network interface whose activation starts the application. -/
  startDevice : Option String := none
  depends : List String := []
  /-- The dependencies are required, not only waited for. -/
  strongDependencies : Bool := false
  workingDir : String
  services : List Service
  version : Version
  /-- Set when a script that reloads all services is installed. -/
  reloadHelper : Option String := none
  deriving DecidableEq, Repr, Inhabited

namespace Application

/-- The application that the defaults describe, with the given services. -/
def ofDefaults (version : Version) (d : Defaults) (services : List Service) : Application where
  name := d.name
  user := d.user
  group := d.group
  workingDir := d.workingDir
  services := services
  version := version

/-- Some service is reloaded by a signal. -/
def isReloadSignalSet (a : Application) : Bool := a.services.any (·.options.isReloadSignalSet)

/-- The application waits for others. -/
def hasDependencies (a : Application) : Bool := !a.depends.isEmpty

/-- A service of an application (section 9 has the two linked). -/
structure Member where
  app : Application
  service : Service
  deriving Repr

/-- The services, each with the application. -/
def members (a : Application) : List Member := a.services.map (Member.mk a)

/-- The first service of a name. -/
def member? (a : Application) (name : String) : Option Member :=
  a.members.find? (·.service.name == name)

namespace Member

/-- The options of the service. -/
abbrev options (m : Member) : Options := m.service.options

/-- The service's own directory, or else that of the application. -/
def workingDir (m : Member) : String :=
  (Options.setText m.options.workingDir).getD m.app.workingDir

/-- Where the service's log file is (section D). -/
def logPath? (m : Member) : Option String :=
  m.options.logFile.map (Path.resolve m.workingDir)

/-- Where the file with the service's variables is (section D). -/
def variablesPath? (m : Member) : Option String :=
  m.options.variablesFile.map (Path.resolve m.workingDir)

end Member

end Application

end ProcUnits
