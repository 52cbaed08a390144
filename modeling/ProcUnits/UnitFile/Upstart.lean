import ProcUnits.UnitFile.Systemd
import ProcUnits.Text.Blank
import ProcUnits.Text.Numeral

/-!
Jobs of upstart: `.conf` files with stanzas. This is the event-based one of the two backends in
section 4.6 of the specification.

* `startCondition`, `stopCondition`: when an application runs;
* `appTemplate`, `serviceTemplate`: the jobs of an application and of an instance;
* `Release`: versions of upstart in their order; `Release.ofOutput?` reads one from what the
  daemon says of itself.
-/

namespace ProcUnits.UnitFile.Upstart

open Template (Item)
open Systemd (memoryText numberText)

/-- The extension of jobs. -/
def extension : String := ".conf"

/-- The name of a job. -/
def unitName (name : String) : String := name ++ extension

/-! ### The job of an application -/

/-- When the application starts (section 4.6). -/
def startCondition (a : Application) : String :=
  if a.startDevice.isNone && !a.hasDependencies then
    "runlevel [" ++ numberText a.startLevel ++ "]"
  else
    " and ".intercalate
      (a.startDevice.toList.map ("net-device-up IFACE=" ++ ·)
        ++ a.depends.map ("started " ++ ·))

/-- When the application stops. -/
def stopCondition (a : Application) : String :=
  if a.hasDependencies then " and ".intercalate (a.depends.map ("stopped " ++ ·))
  else "runlevel [" ++ numberText a.stopLevel ++ "]"

/-- The job of an application. -/
def appTemplate (date : String) (a : Application) : Template :=
  let dir := logDir a
  [.line (header "unit" "upstart" date a),
    .block, .line ("start on " ++ startCondition a), .line ("stop on " ++ stopCondition a),
    .block, .line "pre-start script",
    .block, .line "bash << \"EOF\"",
    .line ("  mkdir -p " ++ dir),
    .line ("  chown -R " ++ a.user ++ " " ++ dir),
    .line ("  chgrp -R " ++ a.group ++ " " ++ dir),
    .line ("  chmod -R g+w " ++ dir),
    .line "EOF",
    .block, .line "end script"]

/-! ### The job of an instance -/

/-- A line, if the condition holds. -/
def lineIf (set : Bool) (s : String) : List Item := if set then [.line s] else []

/-- A line for a text option, if that is set. -/
def lineFor (start : String) (o : Option String) : List Item :=
  (Options.setText o).toList.map fun s => .line (start ++ s)

/-- Whether and how the instance is started again. -/
def respawnItems (o : Options) : List Item :=
  if o.isRespawnEnabled then
    .line "respawn"
    :: lineIf o.isRespawnLimitSet
      ("respawn limit " ++ numberText o.respawn.count ++ " " ++ numberText o.respawn.interval)
    ++ lineIf o.isRespawnDelaySet ("post-stop exec sleep " ++ numberText o.respawn.delay)
  else []

/-- How the instance is killed and reloaded. -/
def killItems (o : Options) : List Item :=
  lineIf o.isKillTimeoutSet ("kill timeout " ++ numberText o.killTimeout)
    ++ lineFor "kill signal " o.killSignal ++ lineFor "reload signal " o.reloadSignal

/-- A limit, soft and hard. -/
def limitLine (name value : String) : String := "limit " ++ name ++ " " ++ value ++ " " ++ value

/-- The limits on the instance. -/
def limitItems (o : Options) : List Item :=
  lineIf o.isFileLimitSet (limitLine "nofile" (numberText o.limits.files))
    ++ lineIf o.isProcessLimitSet (limitLine "nproc" (numberText o.limits.processes))
    ++ lineIf o.isMemoryLimitSet
      (limitLine "memlock" (memoryText "unlimited" o.limits.lockedMemory))

/-- The job of an instance. -/
def serviceTemplate (date : String) (i : Instance) : Template :=
  let a := i.member.app
  let o := i.member.options
  let log := i.consoleLog
  [.line (header "unit" "upstart" date a),
    .block, .line ("start on starting " ++ a.name), .line ("stop on stopping " ++ a.name)]
  ++ .block :: respawnItems o ++ .block :: killItems o ++ .block :: limitItems o
  ++ [.block, .line "script",
    .line ("  touch " ++ log),
    .line ("  chown " ++ a.user ++ " " ++ log),
    .line ("  chgrp " ++ a.group ++ " " ++ log),
    .line ("  chmod g+w " ++ log),
    .line ("  exec sudo -u " ++ a.user ++ " /bin/bash " ++ i.helperPath ++ " &>>" ++ log),
    .line "end script"]

/-! ### Versions -/

/-- A version of upstart. -/
structure Release where
  major : Nat
  minor : Nat
  patch : Nat
  deriving DecidableEq, Repr

namespace Release

/-- The text of a version. -/
def text (v : Release) : String := s!"{v.major}.{v.minor}.{v.patch}"

/-- One version comes before the other: the first number in which they differ decides. -/
def isBefore (v w : Release) : Bool :=
  v.major < w.major
    || (v.major == w.major
      && (v.minor < w.minor || (v.minor == w.minor && v.patch < w.patch)))

/-- The first version that reloads a job by a signal of its own (section 4.6). -/
def firstWithReload : Release := ⟨1, 10, 0⟩

/-- The text without the parentheses at its ends. -/
def trimParens (s : List Char) : List Char :=
  let isParen (c : Char) : Bool := c == '(' || c == ')'
  ((s.dropWhile isParen).reverse.dropWhile isParen).reverse

/-- A number of a version. One that is missing is zero. -/
def partOf : Option (List Char) → Option Nat
  | none => some 0
  | some p => Text.Numeral.word32? 10 p

/-- The version that numbers with dots between them stand for. The first number has to be
there, and what follows the third one does not matter. -/
def ofText? (s : List Char) : Option Release :=
  let parts := Text.splitAt '.' s
  match partOf parts[0]?, partOf parts[1]?, partOf parts[2]? with
  | some a, some b, some c => some ⟨a, b, c⟩
  | _, _, _ => none

/-- The version in the third word of the first line, as in `init (upstart 1.12.1)`. -/
def ofOutput? (output : String) : Option Release :=
  match Text.lines output.toList with
  | [] => none
  | line :: _ => ((Text.words line)[2]?).bind fun w => ofText? (trimParens w)

end Release

end ProcUnits.UnitFile.Upstart
