import ProcUnits.UnitFile.Script

/-!
Units of systemd: `.service` files with sections of directives. This is the transactional one of the
two backends in section 4.6 of the specification.

A directive is written exactly if its option is set. The unit of the application wants the
units of all its instances; the line that names them is broken before it gets too long.

* `wantsLines`: the lines that name the instances;
* `appTemplate`, `serviceTemplate`: the units of an application and of an instance;
* `reloadHelper`: the script that reloads all instances, if some service has a signal for it.
-/

namespace ProcUnits.UnitFile.Systemd

open Template (Item)

/-- The extension of units. -/
def extension : String := ".service"

/-- The name of a unit. -/
def unitName (name : String) : String := name ++ extension

/-! ### Lines with many names -/

/-- The most bytes of a line that names units (section 4.6). -/
def maxWantsLine : Nat := 1536

/-- What such a line starts with. -/
def wantsKey : String := "Wants="

/-- Names in groups with a space between each two, the first group starting with `current`. A
group goes on as long as its line stays within the limit. -/
def groupsFrom (current : String) : List String → List String
  | [] => if current.isEmpty then [] else [current]
  | n :: ns =>
    if current.isEmpty then groupsFrom n ns
    else if maxWantsLine
        < wantsKey.utf8ByteSize + current.utf8ByteSize + 1 + n.utf8ByteSize then
      current :: groupsFrom n ns
    else groupsFrom (current ++ " " ++ n) ns

/-- The lines that name the units of all instances (section 4.6). -/
def wantsLines (a : Application) : List String :=
  (groupsFrom "" ((stems a).map unitName)).map (wantsKey ++ ·)

/-! ### The unit of an application -/

/-- The target that stands for a run level. -/
def target (level : Int) : String :=
  if level = 1 then "rescue.target"
  else if level = 5 then "graphical.target"
  else if level = 6 then "reboot.target"
  else "multi-user.target"

/-- What binds the application to its network device. -/
def deviceItems (a : Application) : List Item :=
  match a.startDevice with
  | none => []
  | some d =>
    let unit := "sys-subsystem-net-devices-" ++ d ++ ".device"
    [.directive "BindsTo" unit, .directive "After" unit]

/-- What ties the application to others. -/
def dependencyItems (a : Application) : List Item :=
  if a.hasDependencies then
    let units := " ".intercalate (a.depends.map unitName)
    [.directive (if a.strongDependencies then "Requires" else "Wants") units,
      .directive "After" units]
  else []

/-- The unit of an application. -/
def appTemplate (date : String) (a : Application) : Template :=
  let dir := logDir a
  [.line (header "unit" "systemd" date a), .block, .line "[Unit]", .block,
    .directive "Description" ("Unit for " ++ a.name ++ " application"),
    .directive "After" (target a.startLevel)]
  ++ deviceItems a ++ dependencyItems a
  ++ .block :: (wantsLines a).map .line
  ++ [.block, .line "[Service]", .directive "Type" "oneshot",
    .directive "RemainAfterExit" "true",
    .block, .directive "ExecStartPre" ("/bin/mkdir -p " ++ dir),
    .directive "ExecStartPre" ("/bin/chown -R " ++ a.user ++ " " ++ dir),
    .directive "ExecStartPre" ("/bin/chgrp -R " ++ a.group ++ " " ++ dir),
    .directive "ExecStartPre" ("/bin/chmod -R g+w " ++ dir),
    .directive "ExecStart" ("/bin/echo \"" ++ a.name ++ " started\""),
    .directive "ExecStop" ("/bin/echo \"" ++ a.name ++ " stopped\""),
    .optional "ExecReload" (a.reloadHelper.map ("/bin/bash " ++ ·)),
    .block, .line "[Install]", .directive "WantedBy" (target a.startLevel)]

/-! ### The unit of an instance -/

/-- The name of a signal with `SIG` in front, in upper case; a number stays as it is. -/
def signalName (s : String) : String :=
  let upper := s.toList.map Char.toUpper
  if ['S', 'I', 'G'].isPrefixOf upper || upper.all Char.isDigit then String.ofList upper
  else "SIG" ++ String.ofList upper

/-- The text of a number. -/
def numberText (i : Int) : String := toString i

/-- The text of a number, if the condition holds. -/
def numberIf (set : Bool) (i : Int) : Option String := if set then some (numberText i) else none

/-- How the instance is killed. -/
def killItems (o : Options) : List Item :=
  [.optional "KillMode" (Options.setText o.killMode),
    .optional "KillSignal" ((Options.setText o.killSignal).map signalName),
    .optional "TimeoutStopSec" (numberIf o.isKillTimeoutSet o.killTimeout)]

/-- Whether and how the instance is started again. -/
def respawnItems (o : Options) : List Item :=
  if o.isRespawnEnabled then
    [.directive "Restart" "on-failure",
      .optional "RestartSec" (numberIf o.isRespawnDelaySet o.respawn.delay),
      .optional "StartLimitInterval" (numberIf (0 < o.respawn.interval) o.respawn.interval),
      .optional "StartLimitBurst" (numberIf (0 < o.respawn.count) o.respawn.count)]
  else []

/-- The text of a limit on memory (section 4.6). -/
def memoryText (unlimited : String) (i : Int) : String :=
  if i = unlimitedMemory then unlimited else numberText i

/-- The limits on the instance. -/
def limitItems (o : Options) : List Item :=
  [.optional "LimitNOFILE" (numberIf o.isFileLimitSet o.limits.files),
    .optional "LimitNPROC" (numberIf o.isProcessLimitSet o.limits.processes),
    .optional "LimitMEMLOCK"
      (if o.isMemoryLimitSet then some (memoryText "infinity" o.limits.lockedMemory) else none)]

/-- The resource controls of the instance. -/
def resourceItems (r : Resources) : List Item :=
  [.optional "CPUWeight" (r.cpuWeight.map numberText),
    .optional "StartupCPUWeight" (r.startupCpuWeight.map numberText),
    .optional "CPUQuota" (r.cpuQuota.map fun i => numberText i ++ "%"),
    .optional "CPUAffinity" r.cpuAffinity,
    .optional "MemoryLow" r.memoryLow,
    .optional "MemoryHigh" r.memoryHigh,
    .optional "MemoryMax" r.memoryMax,
    .optional "MemorySwapMax" r.memorySwapMax,
    .optional "TasksMax" (r.tasksMax.map numberText),
    .optional "IOWeight" (r.ioWeight.map numberText),
    .optional "StartupIOWeight" (r.startupIoWeight.map numberText),
    .optional "IODeviceWeight" r.ioDeviceWeight,
    .optional "IOReadBandwidthMax" r.ioReadBandwidthMax,
    .optional "IOWriteBandwidthMax" r.ioWriteBandwidthMax,
    .optional "IOReadIOPSMax" r.ioReadIopsMax,
    .optional "IOWriteIOPSMax" r.ioWriteIopsMax,
    .optional "IPAddressAllow" r.ipAddressAllow,
    .optional "IPAddressDeny" r.ipAddressDeny]

/-- The block of resource controls, if the service has any. -/
def resourceBlock (o : Options) : List Item :=
  match o.resources with
  | some r => .block :: resourceItems r
  | none => []

/-- The unit of an instance. -/
def serviceTemplate (date : String) (i : Instance) : Template :=
  let a := i.member.app
  let o := i.member.options
  let log := i.consoleLog
  [.line (header "unit" "systemd" date a), .block, .line "[Unit]", .block,
    .directive "Description"
      ("Unit for " ++ i.name ++ " service (part of " ++ a.name ++ " application)"),
    .directive "PartOf" (unitName a.name),
    .block, .line "[Service]", .directive "Type" "simple"]
  ++ .block :: killItems o ++ .block :: respawnItems o ++ .block :: limitItems o
  ++ resourceBlock o
  ++ [.block, .directive "ExecStartPre" ("/bin/touch " ++ log),
    .directive "ExecStartPre" ("/bin/chown " ++ a.user ++ " " ++ log),
    .directive "ExecStartPre" ("/bin/chgrp " ++ a.group ++ " " ++ log),
    .directive "ExecStartPre" ("/bin/chmod g+w " ++ log),
    .block, .directive "User" a.user, .directive "Group" a.group,
    .directive "WorkingDirectory" i.member.workingDir,
    .directive "ExecStart" ("/bin/sh -c '/bin/bash " ++ i.helperPath ++ " &>>" ++ log ++ "'"),
    .optional "ExecReload"
      ((Options.setText o.reloadSignal).map fun s =>
        "/bin/kill -" ++ signalName s ++ " $MAINPID")]

/-! ### Scripts -/

/-- The script that reloads all instances. -/
def reloadTemplate (date : String) (a : Application) : Template :=
  [.line "#!/bin/bash", .block, .line (header "helper" "systemd" date a), .block,
    .line ("systemctl reload-or-restart " ++ " ".intercalate ((stems a).map unitName))]

/-- The text of that script, if some service is reloaded by a signal. -/
def reloadHelper (date : String) (a : Application) : Option String :=
  if a.isReloadSignalSet then some (reloadTemplate date a).render else none

end ProcUnits.UnitFile.Systemd
