import ProcUnits.Procfile.Read
import ProcUnits.Yaml.Value.Printer

/-!
Turning a legacy application into a document with sections (section C.3 of the specification).

The defaults of the host are written out, so that the document means the same without them.

* `Fields`: the entries of a map under construction; an entry that comes again moves to the end;
* `documentOf`: the document of an application;
* `convert`: its text.
-/

namespace ProcUnits.Procfile

open Yaml (Value)

/-- The entries of a map. -/
abbrev Fields := List (Value × Value)

namespace Fields

/-- The map with a text key set. A key that was there loses its place. -/
def insert (fs : Fields) (key : String) (v : Value) : Fields :=
  fs.filter (fun e => !e.1.isStr key) ++ [(.str key, v)]

/-- The map with a key set if there is a value for it. -/
def insertOption (fs : Fields) (key : String) : Option Value → Fields
  | none => fs
  | some v => fs.insert key v

/-- The map with a number set if it is not zero. -/
def insertNonzero (fs : Fields) (key : String) (i : Int) : Fields :=
  if i = 0 then fs else fs.insert key (.int i)

/-- The map with a number set if it is positive. -/
def insertPositive (fs : Fields) (key : String) (i : Int) : Fields :=
  if 0 < i then fs.insert key (.int i) else fs

/-- The map with a nested map set if that has entries. -/
def insertMap (fs : Fields) (key : String) (inner : Fields) : Fields :=
  if inner.isEmpty then fs else fs.insert key (.map inner)

end Fields

/-- The number of restarts that is written where the defaults have none (section C.4). -/
def standardRespawnCount : Int := 10

/-- The interval that is written where the defaults have none (section C.4). -/
def standardRespawnInterval : Int := 5

/-- How the defaults respawn services. -/
def respawnValue (d : Defaults) : Value :=
  if d.respawnEnabled then
    let fields : Fields :=
      [(.str "count", .int (firstNumber d.respawnCount standardRespawnCount)),
        (.str "interval", .int (firstNumber d.respawnInterval standardRespawnInterval))]
    .map (fields.insertPositive "delay" d.respawnDelay)
  else .bool false

/-- The limits that the defaults set. -/
def limitFields (d : Defaults) : Fields :=
  ((Fields.insertNonzero [] "nofile" d.fileLimit).insertNonzero
    "nproc" d.processLimit).insertNonzero "memlock" d.memoryLimit

/-- A map of variables. -/
def variableFields (vs : Variables) : Fields :=
  vs.entries.foldl (fun fs e => fs.insert e.1 (.str e.2)) []

/-- The entry of a service. -/
def entryOf (s : Service) : Value :=
  let text (o : Option String) : Option Value := (Options.setText o).map .str
  let fields : Fields := Fields.insertOption [] "pre" (s.pre.map .str)
  let fields := fields.insert "command" (.str s.command)
  let fields := fields.insertOption "post" (s.post.map .str)
  let fields := fields.insertOption "working_directory" (text s.options.workingDir)
  let fields := fields.insertOption "log" (text s.options.logFile)
  .map (fields.insertMap "env" (variableFields s.options.environment))

/-- The entries of services. Of two services with one name the later one is kept. -/
def commandFields (services : List Service) : Fields :=
  services.foldl (fun fs s => fs.insert s.name (entryOf s)) []

/-- The document that declares a legacy application under the defaults. -/
def documentOf (a : Application) (d : Defaults) : Except Error Value :=
  match a.version with
  | .v2 => .error .notLegacy
  | .v1 =>
    let fields : Fields := Fields.insert [] "version" (.int 2)
    let fields := fields.insert "start_on_runlevel" (.int a.startLevel)
    let fields := fields.insert "stop_on_runlevel" (.int a.stopLevel)
    let fields := fields.insert "respawn" (respawnValue d)
    let fields := fields.insertMap "limits" (limitFields d)
    let fields := fields.insertPositive "kill_timeout" d.killTimeout
    let fields :=
      if a.workingDir.isEmpty then fields
      else fields.insert "working_directory" (.str a.workingDir)
    .ok (.map (fields.insert "commands" (.map (commandFields a.services))))

/-- The text of the document that declares a legacy application (section C.3). -/
def convert (a : Application) (d : Defaults) : Except Error String := do
  return (← documentOf a d).print ++ "\n"

end ProcUnits.Procfile
