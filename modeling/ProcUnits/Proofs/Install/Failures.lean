import ProcUnits.Proofs.Install.Erasure

/-!
The commands of an installation, and what is left when one of them fails: "any step failing aborts
immediately", and nothing is rolled back (section 4.7 of the specification).

* `Installer.room`: how room is made once the init system can run the application;
* `Installer.installStages`: the commands, each with what is in the tree if it fails;
* `follows_room`, `follows_finish`, `follows_installation`: the steps of an installation go through
  these stages, one part of them after the other;
* `install_commands`: an installation for systemd goes through its stages, and one for upstart asks
  for the version at most.
-/

namespace ProcUnits.Install

open Host (Attempt Command Executes FileTree Location Loses Succeeds)
open UnitFile (InitSystem)
open Validation (isName validate)

variable {i : Installer} {app date : String} {a : Application} {h h' h₁ h₂ : Host}
  {r : Except Error Unit}

namespace Installer

/-- All files of the application are there. -/
def HasOutputs (i : Installer) (date : String) (a : Application) (h : Host) : Prop :=
  ∀ o ∈ i.outputs date a, o.IsAt h

/-- The commands of the installation of an application on the host. An earlier installation is
removed first, up to the second command. From then on all files of the application are there when a
command fails. -/
def installStages (i : Installer) (h : Host) (a : Application) : List Stage :=
  (if i.isInstalled h.files a.name then i.removalStages h a.name else [])
    ++ (stages i.system i.autoStart ["enable", i.system.unitName a.name] (i.HasOutputs h.date a)
      ++ stages i.system i.reload ["daemon-reload"] (i.HasOutputs h.date a))

/-- Makes room for the application. -/
def room (i : Installer) (a : Application) : Attempt Error Unit := do
  if i.isInstalled (← get).files a.name then
    Host.emit .debug s!"Application {a.name} is already installed, removing it first"
    i.uninstall a.name
  makeDirs i.helperDir

lemma clear_eq (i : Installer) (a : Application) : i.clear a = (do
    checkSupport i.system a
    i.room a) :=
  rfl

lemma silent_makeDirs (p : String) : IsSilent (makeDirs p) :=
  ⟨executes_onFile .., raises_onFile ..⟩

lemma silent_writeAll (os : List Output) : IsSilent (os.forM Output.write) :=
  ⟨Attempt.within_forM fun o _ => executes_writeFile o.path o.text o.mode, raises_writeAll os⟩

/-- Where the application was before, making room is its removal. -/
lemma follows_room (happ : isName a.name = true) (he : (i.room a).Ends h r h') :
    Follows h (if i.isInstalled h.files a.name then i.removalStages h a.name else []) h' r := by
  rw [room, Attempt.ends_get_bind] at he
  cases hinstalled : i.isInstalled h.files a.name with
  | false =>
      rw [hinstalled, if_neg Bool.false_ne_true] at he
      exact (silent_makeDirs _).follows he
  | true =>
      rw [hinstalled, if_pos rfl] at he
      rw [if_pos rfl]
      refine (silent_emit ..).follows_bind he fun hemit he₁ => ?_
      exact follows_bind_silent (fun _ => silent_makeDirs _) he₁
        (follows_uninstall happ hinstalled (Attempt.loses_emit _ _ hemit))

/-- What is true of a host while its tree stays as it is, is true when the init system is not told
of the new files. -/
lemma follows_finish {L : Host → Prop} (hL : ∀ h', h.Loses ∅ h' → L h')
    (he : (i.finish app).Ends h r h') :
    Follows h (stages i.system i.autoStart ["enable", i.system.unitName app] L
      ++ stages i.system i.reload ["daemon-reload"] L) h' r :=
  follows_bind he (follows_announce hL) fun hannounce =>
    follows_conclude fun _ hl => hL _ ((loses_announce i app hannounce).empty_trans hl)

/-- Once the init system can run the application, the installation goes through its stages. -/
theorem follows_installation (ha : validate a = []) (hlog : i.AvoidsLog a.name h)
    (he : (i.installation a).Ends h r h') :
    (∃ e, (checkSupport i.system a).Ends h (.error e) h' ∧ r = .error e)
      ∨ ∃ h₁, (checkSupport i.system a).Ends h (.ok ()) h₁
        ∧ Follows h₁ (i.installStages h₁ a) h' r := by
  have happ := Validation.isName_of_validate ha
  rcases installation_ends he with ⟨e, hclear, rfl⟩ | ⟨h₂, hclear, hrest⟩
  · rw [clear_eq] at hclear
    rcases Attempt.ends_bind_error.mp hclear with hsupport | ⟨_, h₁, hsupport, hroom⟩
    · exact Or.inl ⟨e, hsupport, rfl⟩
    · exact Or.inr ⟨h₁, hsupport, (follows_room happ hroom).append_error _⟩
  obtain ⟨_, h₁, hsupport, hroom⟩ := Attempt.ends_bind_ok.mp hclear
  refine Or.inr ⟨h₁, hsupport, (follows_room happ hroom).trans ?_⟩
  rcases hrest with ⟨e, hwrite, rfl⟩ | ⟨h₃, hwrite, hfinish⟩
  · exact ((silent_writeAll _).follows hwrite).append_error _
  refine ((silent_writeAll _).follows hwrite).trans (follows_finish (fun h' hl o ho => ?_) hfinish)
  -- a command that fails from here on finds all files written
  have hc₂ := i.alters_clear happ hclear
  have hc₁ : h.Changes ∅ ∅ h₁ := (loses_checkSupport _ _ hsupport).changes
  rw [hc₁.date_eq, ← hc₂.date_eq] at ho
  exact isAt_of_writeAll ha (hlog.of_changes hc₂) hwrite hl.changes ho

lemma installStages_of_upstart (hsystem : i.system = .upstart) : i.installStages h a = [] := by
  simp [installStages, removalStages, stages, hsystem]

/-- The commands of an installation, and what is left where one of them fails (`Install` in section
4.7). Systemd is told of the application in the order of the stages, up to the first command that
fails, and unless an operation on files is refused, the installation does its work just if none
fails. Upstart is asked for its version at most, and if it cannot run the application, nothing is
done. -/
theorem install_commands {a' : Application} (ha : validate a = []) (hlog : i.AvoidsLog a.name h)
    (hrun : (i.install a).run h = ((a', r), h')) :
    (i.system = .systemd → Follows h (i.installStages h a) h' r
        ∧ (¬ Refused r → (r = .ok () ↔ h.Succeeds ((i.installStages h a).map Stage.command))))
      ∧ (i.system = .upstart →
        h.Executes (if a.isReloadSignalSet && h.upstart.isNone then [releaseQuery] else []) h'
          ∧ ∀ e h₁, (checkSupport i.system a).Ends h (.error e) h₁ →
            r = .error e ∧ h.Loses ∅ h') := by
  have hends := follows_installation ha hlog (ends_installation hrun)
  refine ⟨fun hsystem => ?_, fun hsystem => ?_⟩
  · have hfollows : Follows h (i.installStages h a) h' r := by
      rw [hsystem] at hends
      rcases hends with ⟨e, hsupport, -⟩ | ⟨h₁, hsupport, hfollows⟩
      · exact absurd (Attempt.ends_pure.mp hsupport).1 (by simp)
      · obtain ⟨-, rfl⟩ := Attempt.ends_pure.mp hsupport
        exact hfollows
    exact ⟨hfollows, hfollows.eq_ok_iff⟩
  · -- there are no stages for upstart, so only the check can run a command
    simp only [installStages_of_upstart hsystem] at hends
    rcases hends with ⟨e, hsupport, rfl⟩ | ⟨h₁, hsupport, hfollows⟩
    · refine ⟨asks_checkSupport (hsystem ▸ hsupport), fun e' h₁ he => ?_⟩
      obtain ⟨heq, rfl⟩ := hsupport.unique he
      exact ⟨heq, loses_checkSupport _ _ hsupport⟩
    · refine ⟨?_, fun e h₂ he => absurd (hsupport.unique he).1 (by simp)⟩
      rw [← List.append_nil (ite ..)]
      exact (asks_checkSupport (hsystem ▸ hsupport)).trans hfollows.executes_nil

/-- A host on which the old shop is there, and the second command fails. -/
def brokenShopHost : Host where
  files := oldShopHost.files
  answer := fun n _ => .finished { status := if n = 1 then 1 else 0 }

/-- Where the shop cannot be installed again because its removal was not told, nothing of it is
left. -/
theorem install_brokenShop : ∃ a' h', (shopInstaller.install shop).run brokenShopHost
      = ((a', .error (.commandFailed "systemctl daemon-reload" 1 "")), h')
    ∧ Follows brokenShopHost (shopInstaller.installStages brokenShopHost shop) h'
      (.error (.commandFailed "systemctl daemon-reload" 1 "") : Except Error Unit)
    ∧ h'.history.length = 2 ∧ h'.files.entries = foreignEntries := by
  have hrun : (shopInstaller.install shop).run brokenShopHost
      = ((_, .error (.commandFailed "systemctl daemon-reload" 1 "")), _) :=
    Prod.ext (Prod.ext rfl (by decide +kernel)) rfl
  have hlog : shopInstaller.AvoidsLog shop.name brokenShopHost :=
    fun l _ hl => absurd hl (by simp [Host.LogsTo, brokenShopHost])
  have hcommands := install_commands (by decide +kernel) hlog hrun
  exact ⟨_, _, hrun, (hcommands.1 rfl).1, by decide +kernel, by decide +kernel⟩

/-- A host with a log on which the old shop is there, and the first command fails. -/
def deafShopHost : Host where
  files := loggedShopHost.files
  logger := loggedShopHost.logger
  answer := fun n _ => .finished { status := if n = 0 then 1 else 0 }

/-- Where the first reload of a reinstallation fails, files are left that are called like units and
scripts of the application: one whose name is no text, and a script among the units. Where the
first command fails, the log is another one than before. -/
theorem install_leaves_octets :
    (∃ a' h', (shopInstaller.install shop).run brokenShopHost
        = ((a', .error (.commandFailed "systemctl daemon-reload" 1 "")), h')
      ∧ h'.files.file? oddPlace = some ([5], 0o644)
      ∧ h'.files.file? ["units", "shop_old.sh"] = some ([6], 0o755))
    ∧ ∃ a' h', (shopInstaller.install shop).run deafShopHost
        = ((a', .error (.commandFailed "systemctl disable shop.service" 1 "")), h')
      ∧ h'.files.file? ["log"] ≠ deafShopHost.files.file? ["log"] :=
  ⟨⟨_, ((shopInstaller.install shop).run brokenShopHost).2,
      Prod.ext (Prod.ext rfl (by decide +kernel)) rfl, by decide +kernel, by decide +kernel⟩,
    _, ((shopInstaller.install shop).run deafShopHost).2,
      Prod.ext (Prod.ext rfl (by decide +kernel)) rfl, by decide +kernel⟩

end Installer

end ProcUnits.Install
