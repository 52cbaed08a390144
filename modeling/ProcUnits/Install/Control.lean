import ProcUnits.Host
import ProcUnits.Install.Error
import ProcUnits.UnitFile.InitSystem

/-!
Control of the host's init system by commands: what a provider does beside rendering texts (section
4.6 of the specification).

* `runChecked`: a command whose failure is an error;
* `upstartRelease`: the version of upstart, asked for until it is known and not again;
* `checkSupport`: whether the init system can run an application at all;
* `enable`, `disable`, `reloadUnits`: what systemd has to be told. Upstart watches its jobs by
  itself.
-/

namespace ProcUnits.Install

open Host (Act Attempt Command Outcome)
open UnitFile (InitSystem Upstart.Release)

/-- What a failed command says: its errors, or else what it printed. -/
def complaint (o : Outcome) : String :=
  let errors := Text.trim o.stderr.toList
  String.ofList (if errors.isEmpty then Text.trim o.stdout.toList else errors)

/-- Runs a command that has to do its work. -/
def runChecked (c : Command) : Attempt Error Outcome := do
  Host.emit .debug s!"Executing {c.text}"
  match ← Host.run c with
  | .refused reason => throw (.notStarted c.text reason)
  | .finished o =>
    if o.isSuccess then pure o else throw (.commandFailed c.text o.status (complaint o))

/-! ### Upstart -/

/-- The command that shows the version of upstart (section 6). -/
def releaseQuery : Command := ⟨"init", ["--version"]⟩

/-- The version of upstart. -/
def upstartRelease : Attempt Error Upstart.Release := do
  match (← get).upstart with
  | some v => pure v
  | none =>
    let o ← runChecked releaseQuery
    match Upstart.Release.ofOutput? o.stdout with
    | none => throw (.unknownRelease (String.ofList (Text.trim o.stdout.toList)))
    | some v =>
      Host.emit .debug s!"Detected upstart {v.text}"
      modify fun h => { h with upstart := some v }
      pure v

/-- The init system can run the application (`CheckRequirements` in section 4.6). Only upstart has a
version that cannot: an old one knows no signals for reloading. -/
def checkSupport (system : InitSystem) (a : Application) : Attempt Error Unit := do
  match system with
  | .systemd => pure ()
  | .upstart =>
    if a.isReloadSignalSet then
      let v ← upstartRelease
      if v.isBefore .firstWithReload then throw (.noReloadSignal v)

/-! ### Systemd -/

/-- Runs `systemctl`. -/
def systemctl (args : List String) : Attempt Error Unit := do
  let _ ← runChecked ⟨"systemctl", args⟩

/-- Starts the application with the host from now on (`EnableService` in section 4.6). -/
def enable (system : InitSystem) (app : String) : Attempt Error Unit :=
  match system with
  | .systemd => systemctl ["enable", system.unitName app]
  | .upstart => pure ()

/-- Does not start the application with the host any more (`DisableService` in section 4.6). -/
def disable (system : InitSystem) (app : String) : Attempt Error Unit :=
  match system with
  | .systemd => systemctl ["disable", system.unitName app]
  | .upstart => pure ()

/-- Makes the init system read its units again (`Reload` in section 4.6). -/
def reloadUnits (system : InitSystem) : Attempt Error Unit :=
  match system with
  | .systemd => systemctl ["daemon-reload"]
  | .upstart => pure ()

end ProcUnits.Install
