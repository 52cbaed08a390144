import ProcUnits.Host.Command
import ProcUnits.Host.Log
import ProcUnits.UnitFile.Upstart

/-!
The host: all that the program sees of the machine it runs on, and all that it changes there. These
are the collaborators of section 6 of the specification, and as section 5 has it, nothing else runs
meanwhile.

* `Host.Facts`: what the program asks and does not change. How commands end is among it, as a
  function of the command and the number of commands before it;
* `Host`: the facts with the files, the log and the commands so far;
* `Host.Act`, `Host.Attempt`: steps on a host, and such that may fail. What a failed attempt
  has done until then stays done;
* `Host.emit`, `Host.run`, `Host.currentUser`: the steps all others are made of.
-/

namespace ProcUnits

/-- What a host is like. -/
structure Host.Facts where
  /-- How the command ends that is the `n`-th one. -/
  answer : Nat → Host.Command → Host.Reply := fun _ _ => .finished {}
  /-- A program of this name can be started. -/
  hasProgram : String → Bool := fun _ => false
  hasUser : String → Bool := fun _ => false
  hasGroup : String → Bool := fun _ => false
  /-- The number and, if there is one, the name of the current user. -/
  userId : Nat := 0
  userName : Option String := none
  /-- The date that generated files show. -/
  date : String := ""
  /-- The moment that records of the log show. -/
  stamp : String := ""

/-- A host. -/
structure Host extends Host.Facts where
  files : Host.FileTree := {}
  logger : Host.Log.Logger := {}
  /-- What was written to the standard error stream. -/
  stderr : String := ""
  /-- The commands so far with their ends, the first one first. -/
  history : List (Host.Command × Host.Reply) := []
  /-- The version of upstart, once it is known. -/
  upstart : Option UnitFile.Upstart.Release := none

namespace Host

/-- A step on a host. -/
abbrev Act := StateM Host

/-- A step on a host that may fail. -/
abbrev Attempt (ε : Type) := ExceptT ε Act

/-! ### Records -/

/-- The host with one more line in its log. -/
def withLine (h : Host) (line : String) : Host :=
  match h.logger.sink with
  | .nowhere => h
  | .errorStream => { h with stderr := h.stderr ++ line }
  | .file location => { h with files := h.files.extend location (Text.Utf8.encode line) }

/-- The host with one more record, if the log keeps such ones. -/
def withRecord (h : Host) (level : Level) (message : String) : Host :=
  if h.logger.threshold.passes level then h.withLine (Log.record h.stamp level message) else h

/-- Makes a record. -/
def emit (level : Level) (message : String) : Act Unit := modify (·.withRecord level message)

/-! ### Files and commands -/

/-- Does an operation on the files. -/
def onFiles (f : FileTree → Except OsError FileTree) : Attempt OsError Unit := do
  match f (← get).files with
  | .ok files => modify fun h => { h with files }
  | .error e => throw e

/-- Runs a command. -/
def run (c : Command) : Act Reply := do
  let h ← get
  let reply := h.answer h.history.length c
  set { h with history := h.history ++ [(c, reply)] }
  pure reply

/-! ### Users -/

/-- The number of the current user. -/
def currentUserId : Act Nat := do
  emit .trace "Running getuid"
  pure (← get).userId

/-- The name of the current user, or the number of one without a name. -/
def currentUser : Act String := do
  let id ← currentUserId
  emit .trace s!"Running getpwuid_r for user #{id}"
  match (← get).userName with
  | some name =>
    emit .trace s!"Loading user with uid {id}"
    pure name
  | none => return toString (← currentUserId)

end Host

end ProcUnits
