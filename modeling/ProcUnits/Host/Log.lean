import ProcUnits.Host.FileTree
import ProcUnits.Text.Blank

/-!
The log: records of what is done, each with a level (section B.1 of the specification).

* `Level`, `Threshold`: how grave a record is, and how grave it has to be to be kept;
* `Threshold.ofName`: the threshold of a name, in any case and between blanks;
* `Log.Config`, `Log.Logger`: where records go, as wished and as opened;
* `Log.record`: the line of a record.
-/

namespace ProcUnits.Host

/-- How grave a record is. -/
inductive Level where
  | error
  | warn
  | info
  | debug
  | trace
  deriving DecidableEq, Repr

/-- The name of a level in records. -/
def Level.name : Level → String
  | .error => "ERROR"
  | .warn => "WARN"
  | .info => "INFO"
  | .debug => "DEBUG"
  | .trace => "TRACE"

/-- The place of a level in the order, the gravest first. -/
def Level.rank : Level → Nat
  | .error => 1
  | .warn => 2
  | .info => 3
  | .debug => 4
  | .trace => 5

/-- The last level in the order that is kept, if any is. -/
structure Threshold where
  last : Option Level
  deriving DecidableEq, Repr

namespace Threshold

/-- Keeps nothing. -/
def off : Threshold := ⟨none⟩

/-- Keeps the records of a level and of the graver ones. -/
def upTo (l : Level) : Threshold := ⟨some l⟩

/-- The number of levels that are kept. -/
def rank (t : Threshold) : Nat := (t.last.map Level.rank).getD 0

/-- Records of the level are kept. -/
def passes (t : Threshold) (l : Level) : Bool := l.rank ≤ t.rank

/-- The name of a threshold. -/
def name (t : Threshold) : String := (t.last.map Level.name).getD "OFF"

/-- The name between blanks, in small letters. The names that have a meaning are of ASCII
letters, and among them is none that is the small form of a letter outside ASCII. -/
def plainName (s : String) : String := String.ofList ((Text.trim s.toList).map Char.toLower)

/-- The threshold of a name (section B.1). A name without a meaning stands for `info`. -/
def ofName (s : String) : Threshold :=
  match plainName s with
  | "off" => off
  | "error" | "crit" | "critical" => upTo .error
  | "warn" | "warning" => upTo .warn
  | "debug" => upTo .debug
  | "trace" => upTo .trace
  | _ => upTo .info

end Threshold

namespace Log

/-- The permission bits of a new log file, unless others are wished. -/
def defaultMode : Nat := 0o644

/-- Where records are wished to go. -/
structure Config where
  /-- Without it no record is kept at all. -/
  enabled : Bool := true
  /-- The log file. Without one records go to the standard error stream. -/
  file : Option String := none
  /-- The permission bits of a new log file. -/
  mode : Nat := defaultMode
  threshold : Threshold := .upTo .info
  deriving DecidableEq, Repr

/-- Where records go. -/
inductive Sink where
  | nowhere
  | errorStream
  | file (location : Location)
  deriving DecidableEq, Repr

/-- An opened log. -/
structure Logger where
  threshold : Threshold := .off
  sink : Sink := .nowhere
  deriving DecidableEq, Repr, Inhabited

/-- Opens the log. Its file is created unless it is there. -/
def Config.logger (c : Config) (files : FileTree) : Except OsError (Logger × FileTree) :=
  match c.enabled, c.file with
  | false, _ => .ok ({}, files)
  | true, none => .ok (⟨c.threshold, .errorStream⟩, files)
  | true, some path => do
    let (location, files) ← files.openEnd path c.mode
    .ok (⟨c.threshold, .file location⟩, files)

/-- The line of a record that is made at the moment `stamp` (section B.1). -/
def record (stamp : String) (level : Level) (message : String) : String :=
  stamp ++ " [" ++ level.name ++ "] " ++ message ++ "\n"

end Log

end ProcUnits.Host
