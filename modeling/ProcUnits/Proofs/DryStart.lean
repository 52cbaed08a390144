import ProcUnits.Program
import ProcUnits.Proofs.Host.Quiet
import ProcUnits.Proofs.Install.Removal

/-!
The exporter called to check only, with `--dry-start` (section B.4 of the specification).

* `quiet_readApplication`: reading a service file and checking the application makes records and
  does nothing else;
* `untouched_of_dryStart`: so does a whole run that is to check only, if no removal is asked for;
* `runExport_uninstall_iff`: a removal takes no notice of the wish to check only, and needs no
  superuser then;
* `dryStart_ends`: both together.
-/

namespace ProcUnits

open Host (Attempt)

variable {args : CommandLine.Export} {program : String} {h h' : Host} {s : Settings}

/-! ### Reading a service file -/

lemma quiet_load (path : String) (d : Defaults) : (Procfile.load path d).IsQuiet :=
  .bind (Attempt.quiet_emit ..) fun _ => .bind Attempt.quiet_get fun _ =>
    .bind (Attempt.quiet_liftExcept _) fun _ => .bind (Attempt.quiet_liftExcept _) fun _ =>
    .bind (Attempt.quiet_emit ..) fun _ => .bind (Attempt.quiet_emit ..) fun _ =>
    Attempt.quiet_liftExcept _

lemma quiet_readApplication (s : Settings) (app procfile : String) (checks : Checks) :
    (readApplication s app procfile checks).IsQuiet := by
  refine .bind ((quiet_load _ _).adapt _) fun a => ?_
  have hrest : (if checks.shouldValidate then
        if !(Validation.validate a).isEmpty then throw (.problems (Validation.validate a))
        else pure a
      else do
        Host.emit .debug s!"Validation of {a.name} is disabled"
        pure a : Attempt Failure Application).IsQuiet :=
    Attempt.quiet_ite (Attempt.quiet_ite (Attempt.quiet_throw _) (Attempt.quiet_pure a))
      (.bind (Attempt.quiet_emit ..) fun _ => Attempt.quiet_pure a)
  exact Attempt.quiet_ite (.bind (Attempt.quiet_throw _) fun _ => hrest) hrest

/-! ### Before the work -/

/-- Loading the settings does nothing to the host. -/
lemma loadSettings_ends {path : String} {r : Except Failure Settings}
    (he : (loadSettings path).Ends h r h') :
    h' = h ∧ ∀ s, r = .ok s → Settings.load h.files path = .ok s := by
  rw [loadSettings, Attempt.ends_get_bind] at he
  cases hload : Settings.load h.files path with
  | error e =>
      rw [hload] at he
      obtain ⟨rfl, rfl⟩ := Attempt.ends_throw.mp he
      exact ⟨rfl, fun s hs => absurd hs (by simp)⟩
  | ok s =>
      rw [hload] at he
      simp only at he
      split_ifs at he
      · obtain ⟨rfl, rfl⟩ := Attempt.ends_throw_bind.mp he
        exact ⟨rfl, fun s hs => absurd hs (by simp)⟩
      · obtain ⟨rfl, rfl⟩ := Attempt.ends_pure.mp he
        exact ⟨rfl, fun s' hs => congrArg Except.ok (Except.ok.inj hs)⟩

/-- Opening the log touches the file of the log only. -/
lemma openLog_ends {c : Host.Log.Config} {r : Except Failure Unit}
    (he : (openLog c).Ends h r h') : h.Untouched h' ∧ h.files.KeepsDirs h'.files := by
  rw [openLog, Attempt.ends_get_bind] at he
  cases hlogger : c.logger h.files with
  | error e =>
      rw [hlogger] at he
      obtain ⟨-, rfl⟩ := Attempt.ends_throw.mp he
      exact ⟨.refl _, .refl _⟩
  | ok opened =>
      obtain ⟨logger, files⟩ := opened
      rw [hlogger] at he
      obtain ⟨-, rfl⟩ := Attempt.ends_modify.mp he
      obtain ⟨hk, hget, -⟩ := Host.logger_eq_ok hlogger
      exact ⟨⟨rfl, hget⟩, hk⟩

/-- The installer is that of the settings. -/
lemma findInstaller_ends {asked : Option UnitFile.InitSystem}
    {r : Except Failure Install.Installer} (he : (findInstaller s asked program).Ends h r h') :
    h' = h ∧ ∀ i, r = .ok i → ∃ system, i = s.installer system := by
  rw [findInstaller, Attempt.ends_get_bind] at he
  split at he
  · obtain ⟨rfl, rfl⟩ := Attempt.ends_throw.mp he
    exact ⟨rfl, fun i hi => absurd hi (by simp)⟩
  · rename_i system _
    split_ifs at he
    · obtain ⟨rfl, rfl⟩ := Attempt.ends_throw_bind.mp he
      exact ⟨rfl, fun i hi => absurd hi (by simp)⟩
    · obtain ⟨rfl, rfl⟩ := Attempt.ends_pure.mp he
      exact ⟨rfl, fun i hi => ⟨system, (Except.ok.inj hi).symm⟩⟩

/-- What a run does once the command line and the user have passed. -/
def carryOut (args : CommandLine.Export) (program : String) : Attempt Failure Unit := do
  let s ← loadSettings args.settings
  openLog s.logConfig
  match args.uninstall, args.procfile with
  | false, some procfile => installProcfile s args program procfile
  | _, _ => uninstallApplication s args program

/-- A run needs a service file or the wish to remove, and a superuser or the wish to check only. -/
lemma runExport_ends_iff {r : Except Failure Unit} : (runExport args program).Ends h r h'
    ↔ if !args.uninstall && args.procfile.isNone then r = .error .noProcfile ∧ h' = h
      else if !args.dryStart && h.userId != 0 then r = .error .notSuperuser ∧ h' = h
      else (carryOut args program).Ends h r h' := by
  rw [runExport]
  split_ifs with hprocfile huser
  · exact Attempt.ends_throw_bind
  · rw [Attempt.ends_get_bind, if_pos huser]
    exact Attempt.ends_throw_bind
  · rw [Attempt.ends_get_bind, if_neg huser]
    rfl

/-! ### Installations that are only checked -/

lemma quiet_installProcfile (hdry : args.dryStart = true) (s : Settings)
    (program procfile : String) : (installProcfile s args program procfile).IsQuiet := by
  refine .bind (quiet_readApplication ..) fun a => ?_
  rw [if_pos hdry]
  exact Attempt.quiet_emit ..

/-- A run that is to check only and not to remove leaves the host alone: it changes nothing but the
file of the log, and runs no command. -/
theorem untouched_of_dryStart {r : Except Failure Unit} (hdry : args.dryStart = true)
    (hinstall : args.uninstall = false) (he : (runExport args program).Ends h r h') :
    h.Untouched h' := by
  rw [runExport_ends_iff] at he
  split_ifs at he with hprocfile huser
  · exact he.2 ▸ .refl h
  · exact he.2 ▸ .refl h
  · rcases Attempt.ends_bind.mp he with ⟨e, hload, -⟩ | ⟨s, h₁, hload, he₁⟩
    · rw [(loadSettings_ends hload).1]
      exact .refl h
    rw [(loadSettings_ends hload).1] at he₁
    rcases Attempt.ends_bind.mp he₁ with ⟨e, hopen, -⟩ | ⟨_, h₂, hopen, he₂⟩
    · exact (openLog_ends hopen).1
    obtain ⟨procfile, hsome⟩ : ∃ procfile, args.procfile = some procfile := by
      simpa [hinstall, Option.isNone_iff_eq_none, Option.ne_none_iff_exists'] using hprocfile
    rw [hinstall, hsome] at he₂
    obtain ⟨huntouched, hlogger⟩ := quiet_installProcfile hdry s program procfile he₂
    have hopened := (openLog_ends hopen).1
    -- the log is the one that was opened, so its file is the same one in both steps
    refine ⟨huntouched.history_eq.trans hopened.history_eq, fun l hl => ?_⟩
    refine (huntouched.get?_eq l hl).trans (hopened.get?_eq l ?_)
    rw [← hlogger]
    exact hl

/-! ### Removals -/

/-- A removal that did its work has removed the application's unit. -/
lemma uninstallApplication_ok (he : (uninstallApplication s args program).Ends h (.ok ()) h') :
    h'.logger = h.logger
      ∧ ∃ system, ∀ p, p = (s.installer system).appUnitPath (s.fullName args.appName) →
        h.files.isFile p = true → ¬ h.LogsTo (h.files.placeOf p) →
          h'.files.file? (h.files.placeOf p) = none := by
  obtain ⟨i, h₁, hfind, he₁⟩ := Attempt.ends_bind_ok.mp he
  obtain ⟨rfl, hinstaller⟩ := findInstaller_ends hfind
  obtain ⟨system, rfl⟩ := hinstaller i rfl
  obtain ⟨_, h₂, hadapt, he₂⟩ := Attempt.ends_bind_ok.mp he₁
  obtain ⟨r, huninstall, hr⟩ := Attempt.ends_adapt.mp hadapt
  have hquiet : (do
      let user ← Host.currentUser
      Host.emit .info s!"User {user} uninstalled service {s.fullName args.appName}" :
        Attempt Failure Unit).IsQuiet :=
    .bind Attempt.quiet_currentUser fun _ => Attempt.quiet_emit ..
  obtain ⟨huntouched, hlogger⟩ := hquiet he₂
  obtain ⟨_, rfl⟩ : ∃ u, r = .ok u := by
    cases r with
    | error e => exact absurd hr (by simp [Except.mapError])
    | ok u => exact ⟨u, rfl⟩
  -- the name was not checked, so that nothing is said of the other files
  have hclears := Install.Installer.clears_uninstall_of_clears
    (Install.Installer.clears_sweep_appUnit (s.installer system) (s.fullName args.appName))
  have hlogger' := hlogger.trans (hclears.alters huninstall).logger_eq
  refine ⟨hlogger', system, fun p hp hfile hlog => ?_⟩
  have hgone := hclears.file?_eq_none huninstall p hp hfile hlog
  have hlog' : h'.logger.sink ≠ .file (h₁.files.placeOf p) := by
    rw [hlogger']
    exact hlog
  rw [← hgone]
  exact Host.FileTree.file?_congr (huntouched.get?_eq _ hlog')

/-- A removal is carried out by whom it may, whether or not the run is to check only. -/
lemma runExport_uninstall_iff (args : CommandLine.Export) (program : String)
    {r : Except Failure Unit} (huninstall : args.uninstall = true)
    (huser : args.dryStart = true ∨ h.userId = 0) :
    (runExport args program).Ends h r h' ↔ (carryOut args program).Ends h r h' := by
  rw [runExport_ends_iff, if_neg (by simp [huninstall])]
  rw [if_neg]
  rcases huser with hdry | hroot
  · simp [hdry]
  · simp [hroot]

/-- How a run ends that is to check only (section B.4). One that is not to remove leaves the host
alone. A removal is carried out as if nothing was said of checking, and the application's unit is
gone if it succeeds. -/
theorem dryStart_ends {r : Except Failure Unit} (hdry : args.dryStart = true)
    (he : (runExport args program).Ends h r h') :
    (args.uninstall = false → h.Untouched h')
      ∧ (args.uninstall = true →
        (h.userId = 0 → (runExport { args with dryStart := false } program).Ends h r h')
        ∧ (r = .ok () → ∃ s system, Settings.load h.files args.settings = .ok s
          ∧ ∀ p, p = (s.installer system).appUnitPath (s.fullName args.appName) →
            h.files.isFile p = true → h'.logger.sink ≠ .file (h.files.placeOf p) →
              h'.files.file? (h.files.placeOf p) = none)) := by
  refine ⟨fun hinstall => untouched_of_dryStart hdry hinstall he, fun huninstall => ⟨?_, ?_⟩⟩
  · intro hroot
    have hcarry := (runExport_uninstall_iff args program huninstall (Or.inl hdry)).mp he
    refine (runExport_uninstall_iff { args with dryStart := false } program huninstall
      (Or.inr hroot)).mpr ?_
    rw [carryOut] at hcarry ⊢
    simp only [huninstall] at hcarry ⊢
    exact hcarry
  · rintro rfl
    have hcarry := (runExport_uninstall_iff args program huninstall (Or.inl hdry)).mp he
    obtain ⟨s, h₁, hload, he₁⟩ := Attempt.ends_bind_ok.mp hcarry
    obtain ⟨_, h₂, hopen, he₂⟩ := Attempt.ends_bind_ok.mp he₁
    obtain ⟨rfl, hsettings⟩ := loadSettings_ends hload
    obtain ⟨hopened, hk⟩ := openLog_ends hopen
    rw [huninstall] at he₂
    obtain ⟨hlogger, system, hgone⟩ := uninstallApplication_ok he₂
    refine ⟨s, system, hsettings s rfl, fun p hp hfile hlog => ?_⟩
    -- the opening of the log has left the unit where it was
    rw [hlogger] at hlog
    have hsame := Host.FileTree.file?_congr (hopened.get?_eq _ hlog)
    have hfile₂ : h₂.files.isFile p = true := by
      refine hk.isFile hfile ?_
      obtain ⟨f, hf⟩ := Host.FileTree.file?_of_isFile hfile
      rw [hsame, hf]
      simp
    rw [← hk.placeOf_eq p] at hlog ⊢
    exact hgone p hp hfile₂ hlog

namespace DryStart

/-- A host with an application that upstart runs. -/
def host : Host where
  hasUser := fun _ => true
  hasGroup := fun _ => true
  files :=
    { entries :=
        [(["init"], .directory), (["init", "web.conf"], .file [] 0o644),
          (["settings"], .file (Text.Utf8.encode (String.join
            ["main:\n run_user: www\n run_group: www\n",
              "paths:\n upstart_dir: /init\n working_dir: /\n",
              "log:\n enabled: false\n"])) 0o644)] }

/-- The wish to check only, and to remove. -/
def removal : CommandLine.Export where
  appName := "web"
  dryStart := true
  uninstall := true
  system := some .upstart
  settings := "/settings"

/-- The application is removed, as it is without the wish to check only. -/
theorem removes_web : ∃ h', (runExport removal "init-exporter").Ends host (.ok ()) h'
    ∧ (runExport { removal with dryStart := false } "init-exporter").Ends host (.ok ()) h'
    ∧ host.files.isFile "/init/web.conf" = true ∧ h'.files.isFile "/init/web.conf" = false := by
  have he : (runExport removal "init-exporter").Ends host (.ok ())
      ((runExport removal "init-exporter").run.run host).2 :=
    Prod.ext (by decide +kernel) rfl
  exact ⟨_, he, ((dryStart_ends rfl he).2 rfl).1 rfl, by decide +kernel, by decide +kernel⟩

end DryStart

end ProcUnits
