import ProcUnits.Proofs.Install.Control
import ProcUnits.Proofs.Install.Files
import ProcUnits.Proofs.Install.Outputs

/-!
The removal of an application (`Uninstall` in section 4.7 of the specification).

* `Installer.filePlaces`: where the files of an application are;
* `alters_uninstall`: the removal changes files at no other location;
* `clears_sweep`: what it finds there it takes away;
* `uninstall_ends`: how a removal ends. Unless an operation on files is refused, all files are
  gone, or nothing has been removed.
-/

namespace ProcUnits.Install

open Host (Attempt Location Loses)
open UnitFile (stem)
open Validation (isName)

namespace Installer

variable {i : Installer} {app dir n : String} {h h' : Host}

/-- The locations of the files that an application can have. -/
def filePlaces (i : Installer) (app : String) (w : Location) : Set Location :=
  {l | ∃ dir n, i.IsFileOf app dir n ∧ l = Host.placeFrom w dir ++ [.text n]}

lemma placeFrom_mem_filePlaces (happ : isName app = true) (hfile : i.IsFileOf app dir n)
    (w : Location) : Host.placeFrom w (Path.join dir n) ∈ i.filePlaces app w :=
  ⟨dir, n, hfile, Host.placeFrom_join w dir (hfile.isNamedAfter.isEntryName happ)⟩

/-- The paths of these files, where they are searched for. -/
def filePaths (i : Installer) (app : String) : Set String :=
  {p | ∃ dir n, dir ≠ "" ∧ i.IsFileOf app dir n ∧ p = Path.join dir n}

lemma isFileOf_appUnit (i : Installer) (app : String) :
    i.IsFileOf app i.unitDir (i.system.unitName app) :=
  Or.inl ⟨rfl, Or.inl rfl⟩

lemma isFileOf_reloader (i : Installer) (app : String) :
    i.IsFileOf app i.helperDir (app ++ "-reload.sh") :=
  Or.inr ⟨rfl, Or.inl rfl⟩

/-! ### Removing the files -/

lemma clears_removeFile_of (happ : isName app = true) (hfile : i.IsFileOf app dir n) :
    (removeFile (Path.join dir n)).Clears (i.filePlaces app) {Path.join dir n} := by
  have hremove := clears_removeFile (Path.join dir n)
  refine ⟨hremove.alters.mono (fun w l hl => ?_) fun w => subset_rfl, hremove.file?_eq_none⟩
  rw [show l = _ from hl]
  exact placeFrom_mem_filePlaces happ hfile w

/-- A pattern that matches names of the application only removes files of it. -/
lemma clears_removeMatching_of {pattern : String} (happ : isName app = true)
    (hfiles : ∀ n, Glob.isMatch pattern n = true → i.IsFileOf app dir n) :
    (removeMatching dir pattern).Clears (i.filePlaces app)
      {p | ∃ n, dir ≠ "" ∧ Path.IsEntryName n ∧ Glob.isMatch pattern n = true
        ∧ p = Path.join dir n} :=
  clears_removeMatching fun w n hn => placeFrom_mem_filePlaces happ (hfiles n hn) w

/-- All files of the application are removed, and no others. The two patterns match all names
that its services can have given to units and scripts. -/
theorem clears_sweep (i : Installer) (happ : isName app = true) :
    (i.sweep app).Clears (i.filePlaces app) (i.filePaths app) := by
  have hunits : ∀ n, Glob.isMatch (i.unitPattern app) n = true → i.IsFileOf app i.unitDir n :=
    fun n hn => Or.inl ⟨rfl, Or.inr ((isMatch_unitPattern_iff i happ).mp hn)⟩
  have hscripts : ∀ n, Glob.isMatch (helperPattern app) n = true → i.IsFileOf app i.helperDir n :=
    fun n hn => Or.inr ⟨rfl, Or.inr ((isMatch_helperPattern_iff happ).mp hn)⟩
  refine .mono (.bind (clears_removeFile_of happ (i.isFileOf_appUnit app)) fun _ =>
    .bind (clears_removeMatching_of happ hunits) fun _ =>
    .bind (Host.alters_emit ..).clears fun _ =>
    .bind (clears_removeMatching_of happ hscripts) fun _ =>
    .bind (Host.alters_emit ..).clears fun _ =>
    .bind (clears_removeFile_of happ (i.isFileOf_reloader app)) fun _ =>
    (Attempt.alters_pure ()).clears) ?_
  -- each file of the application has a kind of name that one of the four removals takes
  rintro p ⟨dir, n, hdir, hfile, rfl⟩
  have hn := hfile.isNamedAfter.isEntryName happ
  rcases hfile with ⟨rfl, rfl | hunit⟩ | ⟨rfl, rfl | hscript⟩
  · exact Or.inl rfl
  · exact Or.inr (Or.inl ⟨n, hdir, hn, (isMatch_unitPattern_iff i happ).mpr hunit, rfl⟩)
  · exact Or.inr (Or.inr (Or.inr (Or.inr (Or.inr (Or.inl rfl)))))
  · exact Or.inr (Or.inr (Or.inr (Or.inl
      ⟨n, hdir, hn, (isMatch_helperPattern_iff happ).mpr hscript, rfl⟩)))

/-- Whatever it is called, the application's unit is removed. -/
lemma clears_sweep_appUnit (i : Installer) (app : String) :
    (i.sweep app).Clears (fun _ => Set.univ) {i.appUnitPath app} := by
  have hremove : ∀ p, (removeFile p).Clears (fun _ => Set.univ) {p} := fun p =>
    ⟨(clears_removeFile p).alters.mono (fun w => Set.subset_univ _) fun w => subset_rfl,
      (clears_removeFile p).file?_eq_none⟩
  exact .mono (.bind (hremove _) fun _ =>
    .bind (clears_removeMatching fun _ _ _ => Set.mem_univ _) fun _ =>
    .bind (Host.alters_emit ..).clears fun _ =>
    .bind (clears_removeMatching fun _ _ _ => Set.mem_univ _) fun _ =>
    .bind (Host.alters_emit ..).clears fun _ =>
    .bind (hremove _) fun _ => (Attempt.alters_pure ()).clears) fun p hp => Or.inl hp

/-- It can fail in operations on files only. -/
lemma raises_sweep (i : Installer) (app : String) : (i.sweep app).Raises Error.IsRefusal :=
  .bind (raises_removeFile _) fun _ => .bind (raises_removeMatching ..) fun _ =>
    .bind (Attempt.raises_lift _) fun _ => .bind (raises_removeMatching ..) fun _ =>
    .bind (Attempt.raises_lift _) fun _ => .bind (raises_removeFile _) fun _ =>
    Attempt.raises_pure ()

/-! ### Telling the init system -/

lemma loses_withdraw (i : Installer) (app : String) : (i.withdraw app).Within (Loses ∅) := by
  rw [withdraw, disable_eq]
  exact Attempt.within_ite (.bind (loses_tell ..) fun _ => Attempt.loses_emit ..)
    (Attempt.within_pure ())

lemma loses_conclude (i : Installer) (message : String) :
    (i.conclude message).Within (Loses ∅) := by
  rw [conclude, reloadUnits_eq]
  exact Attempt.within_ite (.bind (loses_tell ..) fun _ => Attempt.loses_emit ..)
    (Attempt.loses_emit ..)

/-! ### The removal -/

/-- What is done once it is known that there is something to remove. -/
def removal (i : Installer) (app : String) : Attempt Error Unit := do
  i.withdraw app
  i.sweep app
  i.conclude s!"Application {app} uninstalled"

/-- Nothing is done if there is nothing to remove. -/
lemma uninstall_ends_iff {r : Except Error Unit} :
    (i.uninstall app).Ends h r h'
      ↔ (i.isInstalled h.files app = false ∧ r = .error (.notInstalled app) ∧ h' = h)
        ∨ (i.isInstalled h.files app = true ∧ (i.removal app).Ends h r h') := by
  rw [uninstall, Attempt.ends_get_bind]
  cases i.isInstalled h.files app with
  | false =>
      simp only [Bool.not_false, if_true, Bool.false_eq_true, false_and, or_false, true_and]
      exact Attempt.ends_throw
  | true =>
      simp only [Bool.not_true, Bool.false_eq_true, if_false, Bool.true_eq_false, false_and,
        false_or, true_and]
      rfl

/-- How a removal ends: if it was begun, and could not be ended only because the init system was
not told of it, the files are gone that its sweep removes. -/
lemma uninstall_ends_of_clears {removed : Location → Set Location} {ps : Set String}
    {r : Except Error Unit} (hsweeps : (i.sweep app).Clears removed ps)
    (he : (i.uninstall app).Ends h r h') (hr : ¬ Refused r) :
    ((∃ e, r = .error e) ∧ h.Changes ∅ ∅ h')
      ∨ (i.isInstalled h.files app = true ∧ ∀ p ∈ ps, h.files.isFile p = true →
        ¬ h.LogsTo (h.files.placeOf p) → h'.files.file? (h.files.placeOf p) = none) := by
  rcases uninstall_ends_iff.mp he with ⟨-, rfl, rfl⟩ | ⟨hinstalled, he⟩
  · exact Or.inl ⟨⟨_, rfl⟩, .refl _⟩
  rcases Attempt.ends_bind.mp he with ⟨e, hwithdraw, rfl⟩ | ⟨_, h₁, hwithdraw, he₁⟩
  · exact Or.inl ⟨⟨e, rfl⟩, (i.loses_withdraw app hwithdraw).changes⟩
  rcases Attempt.ends_bind.mp he₁ with ⟨e, hsweep, rfl⟩ | ⟨_, h₂, hsweep, hconclude⟩
  · exact absurd ⟨e, rfl, i.raises_sweep app hsweep⟩ hr
  refine Or.inr ⟨hinstalled, fun p hp hfile hlog => ?_⟩
  -- all files have gone, and what is left to do is to tell the init system
  have hfront : (do i.withdraw app; i.sweep app).Clears removed (∅ ∪ ps) :=
    (i.loses_withdraw app).alters.clears.bind fun _ => hsweeps
  have hends : (do i.withdraw app; i.sweep app).Ends h (.ok ()) h₂ :=
    Attempt.ends_bind_ok.mpr ⟨_, h₁, hwithdraw, hsweep⟩
  have hgone := hfront.file?_eq_none hends p (Or.inr hp) hfile hlog
  have hlog₂ : ¬ h₂.LogsTo (h.files.placeOf p) :=
    fun hl => hlog ((hfront.alters hends).logsTo_iff.mp hl)
  have hc : h₂.Changes ∅ ∅ h' := (i.loses_conclude _ hconclude).changes
  exact hc.file?_eq_none hlog₂ (Set.notMem_empty _) hgone

/-- What its sweep removes, a removal that does its work removes, and it changes nothing else. -/
lemma clears_uninstall_of_clears {removed : Location → Set Location} {ps : Set String}
    (hsweeps : (i.sweep app).Clears removed ps) : (i.uninstall app).Clears removed ps := by
  refine ⟨fun h r h' he => ?_, fun h _ h' he p hp hfile hlog => ?_⟩
  · rcases uninstall_ends_iff.mp he with ⟨-, -, rfl⟩ | ⟨-, he⟩
    · exact .refl _
    · exact (Attempt.Alters.bind (i.loses_withdraw app).alters fun _ =>
        .bind hsweeps.alters fun _ => (i.loses_conclude _).alters) he
  · rcases uninstall_ends_of_clears hsweeps he (not_refused_ok _) with ⟨⟨e, hr⟩, -⟩ | ⟨-, hgone⟩
    · exact absurd hr (by simp)
    · exact hgone p hp hfile hlog

/-- The removal changes files of the application only. -/
theorem alters_uninstall (i : Installer) (happ : isName app = true) :
    (i.uninstall app).Alters (i.filePlaces app) fun _ => ∅ :=
  (clears_uninstall_of_clears (clears_sweep i happ)).alters

/-- From the first host to the second all files of the application went. -/
def Swept (i : Installer) (app : String) (h h' : Host) : Prop :=
  ∀ p ∈ i.filePaths app, h.files.isFile p = true → ¬ h.LogsTo (h.files.placeOf p) →
    h'.files.file? (h.files.placeOf p) = none

/-- How the removal of an application ends that has a name: all its files are gone, or it failed
and they are as before. -/
theorem uninstall_ends {r : Except Error Unit} (happ : isName app = true)
    (he : (i.uninstall app).Ends h r h') (hr : ¬ Refused r) :
    ((∃ e, r = .error e) ∧ h.Changes ∅ ∅ h')
      ∨ (i.isInstalled h.files app = true ∧ i.Swept app h h') :=
  uninstall_ends_of_clears (clears_sweep i happ) he hr

end Installer

end ProcUnits.Install
