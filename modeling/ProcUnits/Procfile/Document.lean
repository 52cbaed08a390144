import ProcUnits.Application
import ProcUnits.Procfile.Clause
import ProcUnits.Procfile.Error
import ProcUnits.Yaml.Value

/-!
The format with sections (section 4.3 of the specification): a document whose `commands` section has
an entry for each service.

Every key but the command of a service is optional, and a value that is null counts as missing.
Numbers and truth values may be written as texts, and texts as any scalar. An error names the
value at fault by the keys that lead to it, with dots between them.

* `textOf`, `intOf`, `boolOf`: the three types of properties, and `optional` for a value that
  may be missing;
* `optionsOf`: the options of a service, or those that stand at the top for all services;
* `serviceOf`: one entry of the `commands` section;
* `Draft`, `readDocument`: an application as its document declares it, before the shared
  options are applied.
-/

namespace ProcUnits.Procfile

open Yaml (Value)

/-- An application before the options of its services are decided. -/
structure Draft where
  app : Application
  /-- The options that hold for every service. -/
  shared : Options := {}
  deriving Repr

/-! ### Properties -/

/-- The value has another type than it should. -/
def wrongType (path : String) (e : Expected) (v : Value) : Error :=
  .property path (.wrongType e v.kind)

/-- A text, as which every scalar counts. -/
def textOf (path : String) (v : Value) : Except Error String :=
  match v.text? with
  | some s => .ok s
  | none => .error (wrongType path .text v)

/-- An integer, which may be written as a text. -/
def intOf (path : String) (v : Value) : Except Error Int :=
  match v with
  | .int i => .ok i
  | .str s =>
    match Text.Numeral.int64 10 (Text.trim s.toList) with
    | .ok i => .ok i
    | .error f => .error (.property path (.numeral f s))
  | v => .error (wrongType path .integer v)

/-- The text without regard to the case of ASCII letters. -/
def lowered (s : String) : List Char := s.toList.map Char.toLower

/-- A truth value, which may be written as a text in any case. -/
def boolOf (path : String) (v : Value) : Except Error Bool :=
  match v with
  | .bool b => .ok b
  | .str s =>
    if lowered s = "true".toList then .ok true
    else if lowered s = "false".toList then .ok false
    else .error (wrongType path .boolean v)
  | v => .error (wrongType path .boolean v)

/-- The value under a key, read as a type, if there is one. `start` leads to `v`. -/
def optional {α : Type} (read : String → Value → Except Error α) (start : String) (v : Value)
    (key : String) : Except Error (Option α) :=
  match v.get? key with
  | none => .ok none
  | some w => (read (start ++ key) w).map some

/-- A number that is zero where it is missing. -/
def number (start : String) (v : Value) (key : String) : Except Error Int :=
  (optional intOf start v key).map (·.getD 0)

/-! ### Options -/

/-- A variable and its value, which may be null for the empty text. -/
def variableOf (path : String) (e : Value × Value) : Except Error (String × String) :=
  match e.1.text? with
  | none => .error (.property path .variableName)
  | some name =>
    match e.2 with
    | .null => .ok (name, "")
    | v =>
      match v.text? with
      | some s => .ok (name, s)
      | none => .error (wrongType (path ++ "." ++ name) .scalar v)

/-- Variables with their values. -/
def variablesOf (path : String) (v : Value) : Except Error Variables :=
  match v with
  | .map es => do return Variables.ofList (← es.mapM (variableOf path))
  | v => .error (wrongType path .map v)

/-- Whether and how to respawn. Numbers say that a service is respawned. -/
def respawnOf (path : String) (v : Value) : Except Error Respawn :=
  match v with
  | .map es => do
    return {
      enabled := some true
      count := ← number (path ++ ".") (.map es) "count"
      interval := ← number (path ++ ".") (.map es) "interval"
      delay := ← number (path ++ ".") (.map es) "delay" }
  | v => do return { enabled := some (← boolOf path v) }

/-- Limits. -/
def limitsOf (path : String) (v : Value) : Except Error Limits :=
  match v with
  | .map es => do
    return {
      files := ← number (path ++ ".") (.map es) "nofile"
      processes := ← number (path ++ ".") (.map es) "nproc"
      lockedMemory := ← number (path ++ ".") (.map es) "memlock" }
  | v => .error (wrongType path .map v)

/-- Resource controls. -/
def resourcesOf (path : String) (v : Value) : Except Error Resources :=
  match v with
  | .map es => do
    let int := optional intOf (path ++ ".") (.map es)
    let text := optional textOf (path ++ ".") (.map es)
    return {
      cpuWeight := ← int "cpu_weight"
      startupCpuWeight := ← int "startup_cpu_weight"
      cpuQuota := ← int "cpu_quota"
      cpuAffinity := ← text "cpu_affinity"
      memoryLow := ← text "memory_low"
      memoryHigh := ← text "memory_high"
      memoryMax := ← text "memory_max"
      memorySwapMax := ← text "memory_swap_max"
      tasksMax := ← int "task_max"
      ioWeight := ← int "io_weight"
      startupIoWeight := ← int "startup_io_weight"
      ioDeviceWeight := ← text "io_device_weight"
      ioReadBandwidthMax := ← text "io_read_bandwidth_max"
      ioWriteBandwidthMax := ← text "io_write_bandwidth_max"
      ioReadIopsMax := ← text "io_read_iops_max"
      ioWriteIopsMax := ← text "io_write_iops_max"
      ipAddressAllow := ← text "ip_address_allow"
      ipAddressDeny := ← text "ip_address_deny" }
  | v => .error (wrongType path .map v)

/-- The options that `v` declares; `start` leads to it (section 4.3). -/
def optionsOf (start : String) (v : Value) : Except Error Options := do
  let text := optional textOf start v
  let workingDir ← text "working_directory"
  let logFile ← text "log"
  let variablesFile ← text "env_file"
  let killSignal ← text "kill_signal"
  let killMode ← text "kill_mode"
  let reloadSignal ← text "reload_signal"
  let killTimeout ← number start v "kill_timeout"
  let count ← number start v "count"
  let environment ← optional variablesOf start v "env"
  let respawn ← optional respawnOf start v "respawn"
  let limits ← optional limitsOf start v "limits"
  let resources ← optional resourcesOf start v "resources"
  return {
    environment := environment.getD .empty
    variablesFile, workingDir, logFile, killTimeout, killSignal, killMode, reloadSignal, count
    respawn := respawn.getD {}
    limits := limits.getD {}
    resources }

/-! ### Services -/

/-- The options of a service whose command is written as `clause` (section D). What the clause says
counts where no key says otherwise. -/
def withClause (o : Options) (clause : Clause) : Options :=
  { o with
    logFile := o.logFile.or clause.log
    environment := o.environment.union clause.environment }

/-- The service of an entry (section 4.3). -/
def serviceOf (name : String) (v : Value) : Except Error Service :=
  match v with
  | .map es => do
    let v : Value := .map es
    let start := "commands." ++ name ++ "."
    match ← optional textOf start v "command" with
    | none => throw (.property (start ++ "command") .required)
    | some command =>
      let options ← optionsOf start v
      let clause := Clause.scan command.toList
      let pre ← optional textOf start v "pre"
      let post ← optional textOf start v "post"
      return { name, command := clause.command, pre, post, options := withClause options clause }
  | v => .error (.serviceKind name v.kind)

/-- The service of an entry with its key. -/
def serviceOfEntry (e : Value × Value) : Except Error Service :=
  match e.1.text? with
  | none => .error (.serviceName e.1.kind)
  | some name => serviceOf name e.2

/-! ### Applications -/

/-- The options for all services: they are respawned unless the document says otherwise. -/
def sharedOf (o : Options) : Options :=
  { o with respawn := { o.respawn with enabled := o.respawn.enabled.or (some true) } }

/-- The application that a document declares (section 4.3). -/
def readDocument (doc : Value) (d : Defaults) : Except Error Draft := do
  match doc.get? "commands" with
  | some (.map es) =>
    let shared := sharedOf (← optionsOf "" doc)
    let services ← es.mapM serviceOfEntry
    let base := Application.ofDefaults .v2 d services
    let workingDir ← optional textOf "" doc "working_directory"
    let startLevel ← optional intOf "" doc "start_on_runlevel"
    let stopLevel ← optional intOf "" doc "stop_on_runlevel"
    let startDevice ← optional textOf "" doc "start_on_device"
    let strong ← optional boolOf "" doc "strong_dependencies"
    let depends ← optional textOf "" doc "depends"
    let app :=
      { base with
        workingDir := workingDir.getD base.workingDir
        startLevel := startLevel.getD base.startLevel
        stopLevel := stopLevel.getD base.stopLevel
        startDevice
        strongDependencies := strong.getD base.strongDependencies
        depends := match depends with
          | some s => (Text.words s.toList).map String.ofList
          | none => base.depends }
    return { app, shared }
  | _ => throw .noCommands

end ProcUnits.Procfile
