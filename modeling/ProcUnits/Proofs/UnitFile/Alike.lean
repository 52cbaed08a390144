import Mathlib.Tactic.Common
import ProcUnits.UnitFile.InitSystem

/-!
What the units of an application show of it.

* `ApplicationAlike`, `OptionsAlike`, `InstanceAlike`: agreement on all that a unit can show;
* `appUnit_eq`, `serviceUnit_eq`: where there is agreement, all init systems get the same units;
* `helper_eq_append`: what a helper script shows of its instance.
-/

namespace ProcUnits.UnitFile

variable {a b : Application} {o p : Options} {i j : Instance}

/-! ### Units of applications -/

/-- The applications agree on what their own units show. -/
structure ApplicationAlike (a b : Application) : Prop where
  name_eq : a.name = b.name
  user_eq : a.user = b.user
  group_eq : a.group = b.group
  startLevel_eq : a.startLevel = b.startLevel
  stopLevel_eq : a.stopLevel = b.stopLevel
  startDevice_eq : a.startDevice = b.startDevice
  depends_eq : a.depends = b.depends
  strongDependencies_eq : a.strongDependencies = b.strongDependencies
  reloadHelper_eq : a.reloadHelper = b.reloadHelper
  stems_eq : stems a = stems b

/-- Applications that agree have the same unit. -/
theorem appUnit_eq (h : ApplicationAlike a b) (system : InitSystem) (date : String) :
    system.appUnit date a = system.appUnit date b := by
  cases system with
  | systemd =>
      have hdevice : Systemd.deviceItems a = Systemd.deviceItems b := by
        rw [Systemd.deviceItems, Systemd.deviceItems, h.startDevice_eq]
      have hdependencies : Systemd.dependencyItems a = Systemd.dependencyItems b := by
        rw [Systemd.dependencyItems, Systemd.dependencyItems, Application.hasDependencies,
          Application.hasDependencies, h.depends_eq, h.strongDependencies_eq]
      simp only [InitSystem.appUnit, Systemd.appTemplate, Systemd.wantsLines, header, logDir,
        hdevice, hdependencies, h.name_eq, h.user_eq, h.group_eq, h.startLevel_eq,
        h.reloadHelper_eq, h.stems_eq]
  | upstart =>
      have hstart : Upstart.startCondition a = Upstart.startCondition b := by
        rw [Upstart.startCondition, Upstart.startCondition, Application.hasDependencies,
          Application.hasDependencies, h.startDevice_eq, h.depends_eq, h.startLevel_eq]
      have hstop : Upstart.stopCondition a = Upstart.stopCondition b := by
        rw [Upstart.stopCondition, Upstart.stopCondition, Application.hasDependencies,
          Application.hasDependencies, h.depends_eq, h.stopLevel_eq]
      simp only [InitSystem.appUnit, Upstart.appTemplate, header, logDir, hstart, hstop, h.name_eq,
        h.user_eq, h.group_eq]

/-! ### Units of instances -/

/-- The options agree on what units show. Numbers for respawning are shown only where services are
respawned. -/
structure OptionsAlike (o p : Options) : Prop where
  killTimeout_eq : o.killTimeout = p.killTimeout
  killSignal_eq : o.killSignal = p.killSignal
  killMode_eq : o.killMode = p.killMode
  reloadSignal_eq : o.reloadSignal = p.reloadSignal
  isRespawnEnabled_eq : o.isRespawnEnabled = p.isRespawnEnabled
  respawn_eq : o.isRespawnEnabled = true → o.respawn = p.respawn
  limits_eq : o.limits = p.limits
  resources_eq : o.resources = p.resources

namespace OptionsAlike

lemma systemd_killItems_eq (h : OptionsAlike o p) : Systemd.killItems o = Systemd.killItems p := by
  rw [Systemd.killItems, Systemd.killItems, Options.isKillTimeoutSet, Options.isKillTimeoutSet,
    h.killMode_eq, h.killSignal_eq, h.killTimeout_eq]

lemma systemd_respawnItems_eq (h : OptionsAlike o p) :
    Systemd.respawnItems o = Systemd.respawnItems p := by
  rw [Systemd.respawnItems, Systemd.respawnItems, ← h.isRespawnEnabled_eq]
  split_ifs with henabled
  · rw [Options.isRespawnDelaySet, Options.isRespawnDelaySet, h.respawn_eq henabled]
  · rfl

lemma systemd_limitItems_eq (h : OptionsAlike o p) :
    Systemd.limitItems o = Systemd.limitItems p := by
  rw [Systemd.limitItems, Systemd.limitItems, Options.isFileLimitSet, Options.isFileLimitSet,
    Options.isProcessLimitSet, Options.isProcessLimitSet, Options.isMemoryLimitSet,
    Options.isMemoryLimitSet, h.limits_eq]

lemma upstart_killItems_eq (h : OptionsAlike o p) : Upstart.killItems o = Upstart.killItems p := by
  rw [Upstart.killItems, Upstart.killItems, Options.isKillTimeoutSet, Options.isKillTimeoutSet,
    h.killTimeout_eq, h.killSignal_eq, h.reloadSignal_eq]

lemma upstart_respawnItems_eq (h : OptionsAlike o p) :
    Upstart.respawnItems o = Upstart.respawnItems p := by
  rw [Upstart.respawnItems, Upstart.respawnItems, ← h.isRespawnEnabled_eq]
  split_ifs with henabled
  · rw [Options.isRespawnDelaySet, Options.isRespawnDelaySet, Options.isRespawnLimitSet,
      Options.isRespawnLimitSet, h.respawn_eq henabled]
  · rfl

lemma upstart_limitItems_eq (h : OptionsAlike o p) :
    Upstart.limitItems o = Upstart.limitItems p := by
  rw [Upstart.limitItems, Upstart.limitItems, Options.isFileLimitSet, Options.isFileLimitSet,
    Options.isProcessLimitSet, Options.isProcessLimitSet, Options.isMemoryLimitSet,
    Options.isMemoryLimitSet, h.limits_eq]

end OptionsAlike

/-- The instances agree on what their units show. -/
structure InstanceAlike (i j : Instance) : Prop where
  app_name_eq : i.member.app.name = j.member.app.name
  app_user_eq : i.member.app.user = j.member.app.user
  app_group_eq : i.member.app.group = j.member.app.group
  workingDir_eq : i.member.workingDir = j.member.workingDir
  name_eq : i.name = j.name
  helperDir_eq : i.helperDir = j.helperDir
  options_alike : OptionsAlike i.member.options j.member.options

/-- Instances that agree have the same unit, under the same name. -/
theorem serviceUnit_eq (h : InstanceAlike i j) (system : InitSystem) (date : String) :
    i.stem = j.stem ∧ system.serviceUnit date i = system.serviceUnit date j := by
  have ho := h.options_alike
  have hstem : i.stem = j.stem := by rw [Instance.stem, Instance.stem, h.app_name_eq, h.name_eq]
  refine ⟨hstem, ?_⟩
  cases system with
  | systemd =>
      simp only [InitSystem.serviceUnit, Systemd.serviceTemplate, Systemd.resourceBlock, header,
        Instance.consoleLog, Instance.helperPath, logDir, hstem, ho.systemd_killItems_eq,
        ho.systemd_respawnItems_eq, ho.systemd_limitItems_eq, ho.resources_eq,
        ho.reloadSignal_eq, h.app_name_eq, h.app_user_eq, h.app_group_eq, h.workingDir_eq,
        h.name_eq, h.helperDir_eq]
  | upstart =>
      simp only [InitSystem.serviceUnit, Upstart.serviceTemplate, header, Instance.consoleLog,
        Instance.helperPath, logDir, hstem, ho.upstart_killItems_eq, ho.upstart_respawnItems_eq,
        ho.upstart_limitItems_eq, h.app_name_eq, h.app_user_eq, h.app_group_eq, h.name_eq,
        h.helperDir_eq]

/-! ### Scripts -/

/-- The lines of a helper script in front of its commands, which only name the application. -/
def scriptHead (generator date : String) (a : Application) : String :=
  "#!/bin/bash" ++ "\n\n" ++ header "helper" generator date a ++ "\n\n"
    ++ "[[ -r /etc/profile.d/rbenv.sh ]] && source /etc/profile.d/rbenv.sh" ++ "\n"
    ++ "[[ -r /etc/profile.d/pyenv.sh ]] && source /etc/profile.d/pyenv.sh" ++ "\n\n"

/-- A helper script ends with the line that runs the commands, in the directory of the service if it
has to go there. -/
lemma helper_eq_append (generator date : String) (cdFirst : Bool) (i : Instance) :
    helper generator date cdFirst i = scriptHead generator date i.member.app
      ++ ((if cdFirst then "cd " ++ i.member.workingDir ++ " && " else "")
        ++ commandChain i.member ++ "\n") := by
  have hblocks (x y z z' w : String) : Template.renderBlocks [[x], [y], [z, z'], [w]]
      = x ++ "\n\n" ++ y ++ "\n\n" ++ z ++ "\n" ++ z' ++ "\n\n" ++ (w ++ "\n") := by
    simp [Template.renderBlocks, String.append_assoc]
  exact hblocks _ _ _ _ _

end ProcUnits.UnitFile
