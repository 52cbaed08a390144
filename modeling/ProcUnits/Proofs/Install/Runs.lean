import ProcUnits.Proofs.Install.Installation
import ProcUnits.Settings.Problem

/-!
Installing and removing one application again and again. Section 8 of the specification asks for an
idempotent installation, and by section 7 running it again is the way to recover from a failure.

* `Installer.HasNoFiles`, `Installer.HasFilesOf`: the two states in which everything is in order;
* `Installer.Sound`: the invariant. Every file of the application is found by its path, and
  without the application's unit there is none;
* `uninstall_sound`, `clear_sound`, `installation_sound`: each operation keeps it, wherever it
  fails, unless an operation on files is refused;
* `Installer.Runs`: operations one after the other with their results, and `Runs.sound`, the
  induction over them;
* `files_of_runs`: what is left in the two directories after any operations.
-/

namespace ProcUnits.Install

open Host (Attempt Location)
open Validation (isName validate)

namespace Installer

variable {i : Installer} {app date : String} {a : Application} {h h' : Host}
  {S : Set Location} {r : Except Error Unit}

/-! ### States -/

/-- No file with a name of the application is in the two directories. -/
def HasNoFiles (i : Installer) (app : String) (h : Host) : Prop :=
  ∀ l ∈ i.ownPlaces app h.files.workingDir, h.files.file? l = none

/-- The files with names of the application are those that belong to it on that date, each with its
text and its permission bits. -/
structure HasFilesOf (i : Installer) (date : String) (a : Application) (h : Host) : Prop where
  isAt : ∀ o ∈ i.outputs date a, o.IsAt h
  exists_output : ∀ l ∈ i.ownPlaces a.name h.files.workingDir, h.files.file? l ≠ none →
    ∃ o ∈ i.outputs date a, l = h.files.placeOf o.path

/-- The files of the application can all be found, and the one that the removal asks for is there
if any is. -/
structure Sound (i : Installer) (app : String) (h : Host) : Prop where
  avoidsLog : i.AvoidsLog app h
  exists_path : ∀ l ∈ i.ownPlaces app h.files.workingDir, h.files.file? l ≠ none →
    ∃ p ∈ i.filePaths app, l = h.files.placeOf p ∧ h.files.isFile p = true
  complete : h.files.file? (h.files.placeOf (i.appUnitPath app)) = none → i.HasNoFiles app h

lemma HasNoFiles.of_changes (hno : i.HasNoFiles app h) (hlog : i.AvoidsLog app h)
    (hc : h.Changes S ∅ h') : i.HasNoFiles app h' := by
  intro l hl
  rw [hc.workingDir_eq] at hl
  exact hc.file?_eq_none (hlog l hl) (Set.notMem_empty l) (hno l hl)

lemma HasNoFiles.sound (hno : i.HasNoFiles app h) (hlog : i.AvoidsLog app h) : i.Sound app h :=
  ⟨hlog, fun l hl hfile => absurd (hno l hl) hfile, fun _ => hno⟩

lemma appUnit_mem_ownPlaces (happ : isName app = true) :
    h.files.placeOf (i.appUnitPath app) ∈ i.ownPlaces app h.files.workingDir :=
  (i.isFileOf_appUnit app).mem_ownPlaces happ _

lemma Sound.of_changes (hs : i.Sound app h) (happ : isName app = true) (hc : h.Changes ∅ ∅ h') :
    i.Sound app h' := by
  have hfile : ∀ l ∈ i.ownPlaces app h.files.workingDir,
      h'.files.file? l = h.files.file? l :=
    fun l hl => hc.file?_eq (hs.avoidsLog l hl) (Set.notMem_empty l) (Set.notMem_empty l)
  refine ⟨hs.avoidsLog.of_changes hc, ?_, ?_⟩
  · intro l hl hne
    rw [hc.workingDir_eq] at hl
    obtain ⟨p, hp, hplace, hisFile⟩ := hs.exists_path l hl (hfile l hl ▸ hne)
    refine ⟨p, hp, (hc.placeOf_eq p).symm ▸ hplace, hc.keepsDirs.isFile hisFile ?_⟩
    exact hplace ▸ hne
  · intro hnone
    rw [hc.placeOf_eq, hfile _ (appUnit_mem_ownPlaces happ)] at hnone
    exact (hs.complete hnone).of_changes hs.avoidsLog hc

/-- The application's unit, if it is there, is found by its own path. -/
lemma Sound.isFile_appUnit (hs : i.Sound app h) (happ : isName app = true)
    (hne : h.files.file? (h.files.placeOf (i.appUnitPath app)) ≠ none) :
    h.files.isFile (i.appUnitPath app) = true := by
  obtain ⟨p, ⟨dir, n, -, hfile, rfl⟩, hplace, hisFile⟩ :=
    hs.exists_path _ (appUnit_mem_ownPlaces happ) hne
  have hunit := (i.isFileOf_appUnit app).isNamedAfter.isEntryName happ
  have hn := hfile.isNamedAfter.isEntryName happ
  rw [appUnitPath, unitPath, Host.FileTree.placeOf_join _ _ hunit,
    Host.FileTree.placeOf_join _ _ hn] at hplace
  have hname : i.system.unitName app = n := by
    simpa using congrArg List.getLast? hplace
  subst hname
  rcases hfile with ⟨rfl, -⟩ | ⟨-, hscript⟩
  · exact hisFile
  · exact absurd rfl (IsUnitName.ne_of_isScriptName (Or.inl rfl) hscript)

/-- If the application counts as not installed, it has no files. -/
lemma Sound.hasNoFiles (hs : i.Sound app h) (happ : isName app = true)
    (hinstalled : i.isInstalled h.files app = false) : i.HasNoFiles app h := by
  refine hs.complete (by_contra fun hne => ?_)
  obtain ⟨l, content, mode, hfind⟩ := Host.FileTree.isFile_iff.mp (hs.isFile_appUnit happ hne)
  simp [isInstalled, Host.FileTree.isPresent, hfind, Except.toOption] at hinstalled

/-! ### Operations -/

/-- A removal leaves everything in order, and no files once it has done its work. -/
lemma uninstall_sound (happ : isName app = true) (hs : i.Sound app h)
    (he : (i.uninstall app).Ends h r h') (hr : ¬ Refused r) :
    i.Sound app h' ∧ (r = .ok () → i.HasNoFiles app h') := by
  have hc := i.alters_uninstall happ he
  rcases uninstall_ends happ he hr with ⟨⟨e, rfl⟩, hkeeps⟩ | ⟨-, hswept⟩
  · exact ⟨hs.of_changes happ hkeeps, fun hok => absurd hok (by simp)⟩
  · have hno : i.HasNoFiles app h' := by
      intro l hl
      rw [hc.workingDir_eq] at hl
      -- a place without a file gets none; by the invariant a file there has a path, by which it is
      -- removed
      by_cases hnone : h.files.file? l = none
      · exact hc.file?_eq_none (hs.avoidsLog l hl) (Set.notMem_empty l) hnone
      · obtain ⟨p, hp, rfl, hisFile⟩ := hs.exists_path l hl hnone
        exact hswept p hp hisFile (hs.avoidsLog _ hl)
    exact ⟨hno.sound (hs.avoidsLog.of_changes hc), fun _ => hno⟩

/-- Making room leaves everything in order, and no files once that is done. -/
lemma clear_sound (happ : isName a.name = true) (hs : i.Sound a.name h)
    (he : (i.clear a).Ends h r h') (hr : ¬ Refused r) :
    i.Sound a.name h' ∧ (r = .ok () → i.HasNoFiles a.name h') := by
  rcases Attempt.ends_bind.mp he with ⟨e, hsupport, rfl⟩ | ⟨_, h₁, hsupport, he₁⟩
  · have hc : h.Changes ∅ ∅ h' := (loses_checkSupport _ _ hsupport).changes
    exact ⟨hs.of_changes happ hc, fun hok => absurd hok (by simp)⟩
  have hc : h.Changes ∅ ∅ h₁ := (loses_checkSupport _ _ hsupport).changes
  have hs₁ := hs.of_changes happ hc
  rw [Attempt.ends_get_bind] at he₁
  -- without the unit of the application the invariant says that there are no files
  cases hinstalled : i.isInstalled h₁.files a.name with
  | false =>
      rw [hinstalled, if_neg Bool.false_ne_true] at he₁
      have hc₁ : h₁.Changes ∅ ∅ h' := Attempt.Alters.changes (alters_makeDirs _) he₁
      have hno := (hs₁.hasNoFiles happ hinstalled).of_changes hs₁.avoidsLog hc₁
      exact ⟨hs₁.of_changes happ hc₁, fun _ => hno⟩
  | true =>
      rw [hinstalled, if_pos rfl] at he₁
      rcases Attempt.ends_bind.mp he₁ with ⟨e, hemit, -⟩ | ⟨_, h₂, hemit, he₂⟩
      · exact absurd (Host.ends_emit.mp hemit).1 (by simp)
      have hs₂ := hs₁.of_changes happ (Attempt.Alters.changes (Host.alters_emit ..) hemit)
      rcases Attempt.ends_bind.mp he₂ with ⟨e, huninstall, rfl⟩ | ⟨_, h₃, huninstall, hdirs⟩
      · obtain ⟨hs₃, -⟩ := uninstall_sound happ hs₂ huninstall hr
        exact ⟨hs₃, fun hok => absurd hok (by simp)⟩
      · obtain ⟨hs₃, hno⟩ := uninstall_sound happ hs₂ huninstall (not_refused_ok _)
        have hc₃ : h₃.Changes ∅ ∅ h' := Attempt.Alters.changes (alters_makeDirs _) hdirs
        exact ⟨hs₃.of_changes happ hc₃, fun _ => (hno rfl).of_changes hs₃.avoidsLog hc₃⟩

/-- What was written where no files were before is all that is there. -/
lemma hasFilesOf_of_writeAll (ha : validate a = []) (hno : i.HasNoFiles a.name h)
    (hlog : i.AvoidsLog a.name h)
    (he : ((i.outputs date a).forM Output.write).Ends h (.ok ()) h') :
    i.HasFilesOf date a h' := by
  have happ := Validation.isName_of_validate ha
  have hos : ∀ o ∈ i.outputs date a, o.IsOf i a.name := fun o ho => isOf_of_mem_outputs ha ho
  have hc := alters_writeAll _ he
  refine ⟨writeAll_ok happ hos (places_nodup ha _) hlog he, fun l hl hne => ?_⟩
  rw [hc.workingDir_eq] at hl
  -- none was there before, so what is there was written
  have hmem : l ∈ writeAllPlaces (i.outputs date a) h.files.workingDir := by
    by_contra hnot
    exact hne ((hc.file?_eq (hlog l hl) hnot hnot).trans (hno l hl))
  obtain ⟨o, ho, hplace⟩ := eq_place_of_mem_writeAllPlaces happ hos happ hl hmem
  exact ⟨o, ho, hplace.trans (hc.placeOf_eq o.path).symm⟩

lemma HasFilesOf.of_changes (hf : i.HasFilesOf date a h) (ha : validate a = [])
    (hlog : i.AvoidsLog a.name h) (hc : h.Changes ∅ ∅ h') : i.HasFilesOf date a h' := by
  have happ := Validation.isName_of_validate ha
  refine ⟨fun o ho => (isOf_of_mem_outputs ha ho).isAt happ hlog hc (hf.isAt o ho),
    fun l hl hne => ?_⟩
  rw [hc.workingDir_eq] at hl
  rw [hc.file?_eq (hlog l hl) (Set.notMem_empty _) (Set.notMem_empty _)] at hne
  obtain ⟨o, ho, hplace⟩ := hf.exists_output l hl hne
  exact ⟨o, ho, hplace.trans (hc.placeOf_eq o.path).symm⟩

/-- An application whose files are all there can be removed. -/
lemma HasFilesOf.sound (hf : i.HasFilesOf date a h) (ha : validate a = []) (hunit : i.unitDir ≠ "")
    (hhelper : i.helperDir ≠ "") (hlog : i.AvoidsLog a.name h) : i.Sound a.name h := by
  refine ⟨hlog, fun l hl hne => ?_, fun hnone => ?_⟩
  · obtain ⟨o, ho, hplace⟩ := hf.exists_output l hl hne
    obtain ⟨dir, n, hfile, hpath⟩ := isOf_of_mem_outputs ha ho
    have hdir : dir ≠ "" := by
      rcases hfile with ⟨rfl, -⟩ | ⟨rfl, -⟩
      · exact hunit
      · exact hhelper
    exact ⟨o.path, ⟨dir, n, hdir, hfile, hpath⟩, hplace, (hf.isAt o ho).2⟩
  · -- the unit is among the files that are there
    have hmem : i.appOutput date { a with reloadHelper := (i.reloader? date a).map (·.path) }
        ∈ i.outputs date a :=
      mem_outputs_iff.mpr (Or.inr (mem_unitOutputs_iff.mpr (Or.inl rfl)))
    have hat := (hf.isAt _ hmem).1
    rw [appOutput, hnone] at hat
    exact absurd hat (by simp)

/-- An installation leaves everything in order, and the files of the application once it has done
its work. -/
lemma installation_sound (ha : validate a = []) (hunit : i.unitDir ≠ "")
    (hhelper : i.helperDir ≠ "") (hs : i.Sound a.name h)
    (he : (i.installation a).Ends h r h') (hr : ¬ Refused r) :
    i.Sound a.name h' ∧ (r = .ok () → i.HasFilesOf h.date a h') := by
  have happ := Validation.isName_of_validate ha
  rcases installation_ends he with ⟨e, hclear, rfl⟩ | ⟨h₁, hclear, hwrite⟩
  · exact ⟨(clear_sound happ hs hclear hr).1, fun hok => absurd hok (by simp)⟩
  obtain ⟨hs₁, hno⟩ := clear_sound happ hs hclear (not_refused_ok _)
  rw [(i.alters_clear happ hclear).date_eq] at hwrite
  rcases hwrite with ⟨e, hwrite, rfl⟩ | ⟨h₂, hwrite, hfinish⟩
  · exact absurd ⟨e, rfl, raises_writeAll _ hwrite⟩ hr
  have hlog₂ := hs₁.avoidsLog.of_changes (alters_writeAll _ hwrite)
  have hf := hasFilesOf_of_writeAll ha (hno rfl) hs₁.avoidsLog hwrite
  have hc : h₂.Changes ∅ ∅ h' := (i.loses_finish a.name hfinish).changes
  have hf' := hf.of_changes ha hlog₂ hc
  exact ⟨hf'.sound ha hunit hhelper (hlog₂.of_changes hc), fun _ => hf'⟩

/-! ### Runs -/

/-- What an installer can be asked for. Each installation has a date of its own. -/
inductive Operation where
  | install (date : String) (a : Application)
  | uninstall (app : String)

namespace Operation

/-- Does what is asked for. -/
def attempt (i : Installer) : Operation → Attempt Error Unit
  | .install date a => do
    modify fun h => { h with date := date }
    i.installation a
  | .uninstall app => i.uninstall app

/-- The operation is about the application of this name, and only one without problems is
installed. -/
def IsOn (app : String) : Operation → Prop
  | .install _ a => a.name = app ∧ validate a = []
  | .uninstall name => name = app

end Operation

/-- The installer has done on the first host what it was asked for, one operation after the other,
with these results. How commands end is up to the host. -/
inductive Runs (i : Installer) (h : Host) : List (Operation × Except Error Unit) → Host → Prop
  | nil : Runs i h [] h
  | snoc {steps : List (Operation × Except Error Unit)} {op : Operation}
      {r : Except Error Unit} {h₁ h₂ : Host} (hrun : Runs i h steps h₁)
      (hend : (op.attempt i).Ends h₁ r h₂) : Runs i h (steps ++ [(op, r)]) h₂

/-- The host on which an operation ends. -/
def Operation.after (i : Installer) (op : Operation) (h : Host) : Host :=
  ((op.attempt i).run.run h).2

lemma Operation.ends_after (op : Operation) {r : Except Error Unit}
    (hr : ((op.attempt i).run.run h).1 = r) : (op.attempt i).Ends h r (op.after i h) :=
  Prod.ext hr rfl

/-- Any operation can be the next one, whatever comes of it. -/
lemma Runs.step {steps : List (Operation × Except Error Unit)} {op : Operation}
    {r : Except Error Unit} (hrun : i.Runs h steps h') (hr : ((op.attempt i).run.run h').1 = r) :
    i.Runs h (steps ++ [(op, r)]) (op.after i h') :=
  .snoc hrun (op.ends_after hr)

lemma install_ends {r : Except Error Unit} :
    ((Operation.install date a).attempt i).Ends h r h'
      ↔ (i.installation a).Ends { h with date := date } r h' :=
  Attempt.ends_lift_bind (m := modify fun h => { h with date := date })

/-- One step keeps the invariant, wherever it fails. -/
theorem step_sound {op : Operation} (hunit : i.unitDir ≠ "") (hhelper : i.helperDir ≠ "")
    (happ : isName app = true) (hop : op.IsOn app) (hs : i.Sound app h)
    (he : (op.attempt i).Ends h r h') (hr : ¬ Refused r) : i.Sound app h' := by
  cases op with
  | install date a =>
      obtain ⟨rfl, ha⟩ := hop
      have hs' : i.Sound a.name { h with date := date } :=
        ⟨hs.avoidsLog, hs.exists_path, hs.complete⟩
      exact (installation_sound ha hunit hhelper hs' (install_ends.mp he) hr).1
  | uninstall name =>
      obtain rfl : name = app := hop
      exact (uninstall_sound happ hs he hr).1

/-- So do all steps together. -/
theorem Runs.sound {steps : List (Operation × Except Error Unit)} (hunit : i.unitDir ≠ "")
    (hhelper : i.helperDir ≠ "") (happ : isName app = true) (hs : i.Sound app h)
    (hrun : i.Runs h steps h') (hon : ∀ s ∈ steps, s.1.IsOn app)
    (hfiles : ∀ s ∈ steps, ¬ Refused s.2) : i.Sound app h' := by
  induction hrun with
  | nil => exact hs
  | snoc hrun hend ih =>
      have hs₁ := ih (fun s hs => hon s (List.mem_append_left _ hs))
        fun s hs => hfiles s (List.mem_append_left _ hs)
      exact step_sound hunit hhelper happ (hon _ List.mem_concat_self) hs₁ hend
        (hfiles _ List.mem_concat_self)

/-- Settings without problems name both directories. -/
lemma dirs_ne_of_problems {s : Settings} {around : Settings.Surroundings}
    (hs : s.problems around = []) (system : UnitFile.InitSystem) :
    (s.installer system).unitDir ≠ "" ∧ (s.installer system).helperDir ≠ "" := by
  simp only [Settings.problems, Settings.Paths.problems, List.append_eq_nil_iff,
    List.map_eq_nil_iff, List.filter_eq_nil_iff] at hs
  have hdirs := hs.1.1.2.1
  simp only [Settings.Paths.entries, List.forall_mem_cons, String.isEmpty_iff] at hdirs
  obtain ⟨-, hhelper, hsystemd, hupstart, -⟩ := hdirs
  refine ⟨?_, hhelper⟩
  cases system with
  | systemd => exact hsystemd
  | upstart => exact hupstart

/-- What is left in the two directories of one application after it was installed and removed any
number of times, with other services each time, and whatever the commands did (the idempotent
installation of section 8). The directories are named, as `dirs_ne_of_problems` says, and the log's
file is there, as it is once the log was opened (`Host.logger_eq_ok`). -/
theorem files_of_runs {steps : List (Operation × Except Error Unit)} (hunit : i.unitDir ≠ "")
    (hhelper : i.helperDir ≠ "") (happ : isName app = true) (hno : i.HasNoFiles app h)
    (hlog : ∀ l, h.LogsTo l → h.files.file? l ≠ none) (hrun : i.Runs h steps h')
    (hon : ∀ s ∈ steps, s.1.IsOn app) (hfiles : ∀ s ∈ steps, ¬ Refused s.2) :
    (h'.files.file? (h'.files.placeOf (i.appUnitPath app)) = none → i.HasNoFiles app h')
      ∧ (∀ date a, steps.getLast? = some (.install date a, .ok ()) → i.HasFilesOf date a h')
      ∧ (∀ name, steps.getLast? = some (.uninstall name, .ok ()) → i.HasNoFiles app h') := by
  have hs : i.Sound app h := hno.sound fun l hl hl' => hlog l hl' (hno l hl)
  refine ⟨(hrun.sound hunit hhelper happ hs hon hfiles).complete, ?_⟩
  -- the invariant carries up to the last operation, and that one decides
  cases hrun with
  | nil => simp
  | @snoc steps op r h₁ _ hrun hend =>
      have hs₁ := hrun.sound hunit hhelper happ hs
        (fun s hs => hon s (List.mem_append_left _ hs))
        fun s hs => hfiles s (List.mem_append_left _ hs)
      have hop := hon _ List.mem_concat_self
      rw [List.getLast?_concat]
      refine ⟨fun date a hlast => ?_, fun name hlast => ?_⟩
      · cases hlast
        obtain ⟨rfl, ha⟩ := hop
        have hs' : i.Sound a.name { h₁ with date := date } :=
          ⟨hs₁.avoidsLog, hs₁.exists_path, hs₁.complete⟩
        exact (installation_sound ha hunit hhelper hs' (install_ends.mp hend)
          (not_refused_ok ())).2 rfl
      · cases hlast
        obtain rfl : name = app := hop
        exact (uninstall_sound happ hs₁ hend (not_refused_ok ())).2 rfl

/-- The shop with its last service only. -/
def mailShop : Application := { shop with services := shop.services.drop 1 }

/-- A host with a directory for units, on which the third command fails. -/
def shopHost : Host where
  answer := fun n _ => .finished { status := if n = 2 then 1 else 0 }
  files := { entries := [(["units"], .directory)] }

/-- The shop is installed, and stays so as its removal fails. Then it is installed with less. -/
def shopSteps : List (Operation × Except Error Unit) :=
  [(.install "today" shop, .ok ()),
    (.uninstall "shop", .error (.commandFailed "systemctl disable shop.service" 1 "")),
    (.install "tomorrow" mailShop, .ok ())]

/-- Nothing is left of the service that is not there any more. -/
theorem files_shop : ∃ h, shopInstaller.Runs shopHost shopSteps h
    ∧ shopInstaller.HasFilesOf "tomorrow" mailShop h := by
  have hrun : shopInstaller.Runs shopHost shopSteps _ :=
    ((Runs.nil.step (by decide +kernel)).step (by decide +kernel)).step (by decide +kernel)
  have hvalid : validate shop = [] ∧ validate mailShop = [] := by decide +kernel
  have hon : ∀ s ∈ shopSteps, s.1.IsOn "shop" := by
    simpa [shopSteps, Operation.IsOn] using ⟨⟨rfl, hvalid.1⟩, rfl, hvalid.2⟩
  have hfiles : ∀ s ∈ shopSteps, ¬ Refused s.2 := by
    simp [shopSteps, Refused, Error.IsRefusal]
  have hno : shopInstaller.HasNoFiles "shop" shopHost :=
    fun l _ => Host.FileTree.file?_eq_none_of_directories (by simp [shopHost]) l
  have hlog : ∀ l, shopHost.LogsTo l → shopHost.files.file? l ≠ none :=
    fun l hl => absurd hl (by simp [Host.LogsTo, shopHost])
  have hends := files_of_runs (by decide) (by decide) (by decide +kernel) hno hlog hrun hon hfiles
  exact ⟨_, hrun, hends.2.1 "tomorrow" mailShop rfl⟩

end Installer

end ProcUnits.Install
