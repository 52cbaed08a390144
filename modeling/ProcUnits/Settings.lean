import ProcUnits.Install.Installer

/-!
The settings of a host: for whom services run, where files go, and what holds for an application
whose file is silent (section B.3 of the specification).

* `Settings` with its five sections. A section or key that the settings do not name has its
  default;
* `Settings.defaultsFor`, `logConfig`, `installer`: what the settings mean to each part of the
  program.
-/

namespace ProcUnits

namespace Settings

/-- Whom services run for, and what is put before the name of every application. -/
structure Identity where
  user : String := ""
  group : String := ""
  nameStart : String := ""
  deriving DecidableEq, Repr, Inhabited

/-- Which formats of service files are taken. -/
structure Formats where
  version1 : Bool := true
  version2 : Bool := true
  deriving DecidableEq, Repr, Inhabited

/-- Where things are. -/
structure Paths where
  workingDir : String := "/tmp"
  helperDir : String := "/var/local/init-exporter/helpers"
  systemdDir : String := "/etc/systemd/system"
  upstartDir : String := "/etc/init"
  deriving DecidableEq, Repr, Inhabited

/-- What holds for the services of all applications. -/
structure ServiceDefaults where
  processes : Int := 0
  files : Int := 0
  lockedMemory : Int := 0
  respawn : Bool := false
  respawnCount : Int := 0
  respawnInterval : Int := 0
  respawnDelay : Int := 0
  killTimeout : Int := 0
  deriving DecidableEq, Repr, Inhabited

/-- What the log is like. -/
structure Logging where
  enabled : Bool := true
  file : Option String := some "/var/log/init-exporter.log"
  /-- The permission bits of a new log file, in octal digits. -/
  mode : String := "644"
  level : String := "info"
  deriving DecidableEq, Repr, Inhabited

end Settings

/-- The settings of a host. -/
structure Settings where
  main : Settings.Identity := {}
  procfile : Settings.Formats := {}
  paths : Settings.Paths := {}
  defaults : Settings.ServiceDefaults := {}
  log : Settings.Logging := {}
  deriving DecidableEq, Repr, Inhabited

namespace Settings

open UnitFile (InitSystem)

/-- Where the settings are, unless the command line says otherwise. -/
def defaultPath : String := "/etc/init-exporter.yaml"

/-- The name that an application has on this host. -/
def fullName (s : Settings) (app : String) : String := s.main.nameStart ++ app

/-- What holds for an application where its file says nothing. -/
def defaultsFor (s : Settings) (app : String) : Defaults where
  name := s.fullName app
  user := s.main.user
  group := s.main.group
  workingDir := s.paths.workingDir
  respawnEnabled := s.defaults.respawn
  respawnInterval := s.defaults.respawnInterval
  respawnCount := s.defaults.respawnCount
  respawnDelay := s.defaults.respawnDelay
  killTimeout := s.defaults.killTimeout
  fileLimit := s.defaults.files
  processLimit := s.defaults.processes
  memoryLimit := s.defaults.lockedMemory

/-- Files of the format are taken. -/
def accepts (s : Settings) : Version → Bool
  | .v1 => s.procfile.version1
  | .v2 => s.procfile.version2

/-! ### The log -/

/-- The largest value of permission bits. -/
def maxMode : Nat := 0o7777

/-- The permission bits that octal digits stand for. -/
def modeOf? (digits : String) : Option Nat :=
  (Text.Numeral.word32? 8 (Text.trim digits.toList)).filter (· ≤ maxMode)

/-- What the settings wish for the log. An empty path is no file. -/
def logConfig (s : Settings) : Host.Log.Config where
  enabled := s.log.enabled
  file := s.log.file.filter (!·.isEmpty)
  mode := (modeOf? s.log.mode).getD Host.Log.defaultMode
  threshold := .ofName s.log.level

/-! ### Installation -/

/-- The directory for the units of an init system. -/
def unitDir (s : Settings) : InitSystem → String
  | .systemd => s.paths.systemdDir
  | .upstart => s.paths.upstartDir

/-- How applications are installed. -/
def installer (s : Settings) (system : InitSystem) : Install.Installer where
  system := system
  helperDir := s.paths.helperDir
  unitDir := s.unitDir system

/-- An application of which only the name matters. -/
def bareApplication (s : Settings) (app : String) : Application :=
  .ofDefaults .v2 (s.defaultsFor app) []

end Settings

end ProcUnits
