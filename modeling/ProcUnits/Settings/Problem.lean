import ProcUnits.Settings

/-!
What is wrong with settings that could be read (section B.3 of the specification). All problems are
found, not only the first.

* `Settings.Problem`: a problem, with its text;
* `Settings.problems`: the problems in the order of the sections. Which users, groups and
  directories there are, the host says.
-/

namespace ProcUnits.Settings

/-- A problem with settings. -/
inductive Problem where
  /-- A key that has to have a value is empty. -/
  | unset (key : String)
  | noSuchUser (name : String)
  | noSuchGroup (name : String)
  | noDirectory (path : String)
  | negative (key : String)
  | lockedMemory
  | emptyLogFile
  | logMode (digits : String)
  deriving DecidableEq, Repr

/-- The text of a problem. -/
def Problem.message : Problem → String
  | .unset k => s!"Property {k} must be set"
  | .noSuchUser n =>
    s!"Property main.run_user contains user {n} which does not exist on this system"
  | .noSuchGroup n =>
    s!"Property main.run_group contains group {n} which does not exist on this system"
  | .noDirectory p => s!"Property paths.working_dir must be path to a directory ({p})"
  | .negative k => s!"Property {k} can't be less than 0"
  | .lockedMemory => "Property defaults.memlock can't be less than -1"
  | .emptyLogFile => "Property log.file can't be empty"
  | .logMode d => s!"Property log.perms contains invalid file mode \"{d}\""

/-- What a host has. -/
structure Surroundings where
  hasUser : String → Bool
  hasGroup : String → Bool
  isDir : String → Bool

/-- A problem, if the condition holds. -/
def problemIf (wrong : Bool) (p : Problem) : List Problem := if wrong then [p] else []

/-- The problems of the section on users. -/
def Identity.problems (m : Identity) (around : Surroundings) : List Problem :=
  (if m.user.isEmpty then [.unset "main.run_user"]
    else problemIf (!around.hasUser m.user) (.noSuchUser m.user))
  ++ (if m.group.isEmpty then [.unset "main.run_group"]
    else problemIf (!around.hasGroup m.group) (.noSuchGroup m.group))

/-- The directories with their keys. -/
def Paths.entries (p : Paths) : List (String × String) :=
  [("paths.working_dir", p.workingDir), ("paths.helper_dir", p.helperDir),
    ("paths.systemd_dir", p.systemdDir), ("paths.upstart_dir", p.upstartDir)]

/-- The problems of the section on paths. Only the working directory has to be there. -/
def Paths.problems (p : Paths) (around : Surroundings) : List Problem :=
  (p.entries.filter (·.2.isEmpty)).map (fun e => .unset e.1)
  ++ problemIf (!p.workingDir.isEmpty && !around.isDir p.workingDir) (.noDirectory p.workingDir)

/-- The numbers that cannot be negative, with their keys. -/
def ServiceDefaults.numbers (d : ServiceDefaults) : List (String × Int) :=
  [("defaults.nproc", d.processes), ("defaults.nofile", d.files),
    ("defaults.respawn_count", d.respawnCount), ("defaults.respawn_interval", d.respawnInterval),
    ("defaults.respawn_delay", d.respawnDelay), ("defaults.kill_timeout", d.killTimeout)]

/-- The problems of the section on defaults. Unlimited memory is written as a negative
number. -/
def ServiceDefaults.problems (d : ServiceDefaults) : List Problem :=
  (d.numbers.filter (·.2 < 0)).map (fun e => .negative e.1)
  ++ problemIf (d.lockedMemory < unlimitedMemory) .lockedMemory

/-- The problems of the section on the log. A log that is off has none. -/
def Logging.problems (l : Logging) : List Problem :=
  if l.enabled then
    problemIf (l.file == some "") .emptyLogFile
    ++ problemIf (modeOf? l.mode).isNone (.logMode l.mode)
  else []

/-- All problems of settings (section B.3). -/
def problems (s : Settings) (around : Surroundings) : List Problem :=
  s.main.problems around ++ s.paths.problems around ++ s.defaults.problems ++ s.log.problems

end ProcUnits.Settings
