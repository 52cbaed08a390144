import ProcUnits.Proofs.Host.FileTree
import ProcUnits.Proofs.Install.Names
import ProcUnits.Proofs.UnitFile.Instances
import ProcUnits.Proofs.Validation.Locality

/-!
The files of an application: the output artifacts of section 6 of the specification.

* `mem_outputs_iff`: which files these are;
* `isFileOf_of_mem_outputs`: each has the name of a unit in the directory for units, or that of a
  script in the one for scripts;
* `stems_nodup`, `fileNames_nodup`: the files of an application without problems have different
  names, so that none is written over another one.
-/

namespace ProcUnits.Install

open UnitFile (InitSystem Instance instances stem stems)
open Validation (allInstanceNames isName validate)

variable {i : Installer} {date app dir n : String} {a : Application} {o : Installer.Output}

namespace Installer

/-- The name belongs to the application in this directory. -/
def IsFileOf (i : Installer) (app dir n : String) : Prop :=
  (dir = i.unitDir ∧ IsUnitName i.system app n) ∨ (dir = i.helperDir ∧ IsScriptName app n)

lemma IsFileOf.isNamedAfter (h : i.IsFileOf app dir n) : IsNamedAfter i.system app n :=
  h.imp And.right And.right

/-! ### Instances -/

/-- The name of an instance is short of slashes. -/
lemma slash_not_mem_name (h : validate a = []) {job : Instance} {helperDir : String}
    (hjob : job ∈ instances a helperDir) : '/' ∉ job.name.toList := by
  obtain ⟨-, -, hs⟩ := UnitFile.eq_of_mem_instances hjob
  have hname := slash_not_mem_of_isName (Validation.isName_service_of_validate h hs)
  exact not_mem_instanceName (by decide) hname job.index

lemma stems_eq_map (a : Application) :
    stems a = (allInstanceNames a.members).map (stem a.name) := by
  simp [stems, allInstanceNames, Application.members, List.map_flatMap, List.flatMap_map]

/-- The units of an application without problems have different names. -/
theorem stems_nodup (h : validate a = []) : (stems a).Nodup := by
  rw [stems_eq_map]
  refine (Validation.instanceNames_nodup h).map fun s t hst => ?_
  rw [stem, stem, String.append_right_inj] at hst
  exact hst

/-! ### Files -/

/-- The files of an application: the script that reloads it, if one is needed, its unit, and a
unit and a script for each instance. -/
lemma mem_unitOutputs_iff : o ∈ i.unitOutputs date a ↔ o = i.appOutput date a
    ∨ ∃ job ∈ instances a i.helperDir,
      o = ⟨i.unitPath job.stem, i.system.serviceUnit date job, unitMode⟩
        ∨ o = ⟨job.helperPath, i.system.helper date job, scriptMode⟩ := by
  simp [unitOutputs, instanceOutputs]

lemma mem_outputs_iff : o ∈ i.outputs date a ↔ i.reloader? date a = some o
    ∨ o ∈ i.unitOutputs date { a with reloadHelper := (i.reloader? date a).map (·.path) } := by
  simp [outputs]

/-- The script that reloads an application is that of its name. -/
lemma path_of_reloader? (h : i.reloader? date a = some o) :
    o.path = Path.join i.helperDir (a.name ++ "-reload.sh") ∧ o.mode = scriptMode := by
  obtain ⟨script, -, rfl⟩ := Option.map_eq_some_iff.mp h
  exact ⟨rfl, rfl⟩

/-- Where the script of an application is that reloads it does not matter for problems. -/
lemma validate_reloadHelper (a : Application) (path : Option String) :
    validate { a with reloadHelper := path } = validate a :=
  Validation.validate_congr rfl (Validation.interchangeable_members
    (a := { a with reloadHelper := path }) (b := a) rfl a.services)

/-- A unit lies in the directory for units and a script in the one for scripts, each under a name
of the application. -/
lemma isFileOf_of_mem_unitOutputs (h : validate a = []) (ho : o ∈ i.unitOutputs date a) :
    (∃ n, IsUnitName i.system a.name n ∧ o.path = Path.join i.unitDir n ∧ o.mode = unitMode)
      ∨ ∃ n, IsScriptName a.name n ∧ o.path = Path.join i.helperDir n ∧ o.mode = scriptMode := by
  rcases mem_unitOutputs_iff.mp ho with rfl | ⟨job, hjob, rfl | rfl⟩
  · exact Or.inl ⟨_, Or.inl rfl, rfl, rfl⟩
  · obtain ⟨-, happ, -⟩ := UnitFile.eq_of_mem_instances hjob
    refine Or.inl ⟨_, Or.inr ⟨job.name, slash_not_mem_name h hjob, rfl⟩, ?_, rfl⟩
    rw [unitPath, Instance.stem, happ]
  · obtain ⟨hdir, happ, -⟩ := UnitFile.eq_of_mem_instances hjob
    refine Or.inr ⟨_, Or.inr ⟨job.name, slash_not_mem_name h hjob, rfl⟩, ?_, rfl⟩
    rw [Instance.helperPath, Instance.stem, hdir, happ]

lemma isFileOf_of_mem_outputs (h : validate a = []) (ho : o ∈ i.outputs date a) :
    (∃ n, IsUnitName i.system a.name n ∧ o.path = Path.join i.unitDir n ∧ o.mode = unitMode)
      ∨ ∃ n, IsScriptName a.name n ∧ o.path = Path.join i.helperDir n ∧ o.mode = scriptMode := by
  rcases mem_outputs_iff.mp ho with ho | ho
  · obtain ⟨hpath, hmode⟩ := path_of_reloader? ho
    exact Or.inr ⟨_, Or.inl rfl, hpath, hmode⟩
  · rw [← validate_reloadHelper a ((i.reloader? date a).map (·.path))] at h
    have hfile := isFileOf_of_mem_unitOutputs h ho
    exact hfile

lemma exists_isFileOf_of_mem_outputs (h : validate a = []) (ho : o ∈ i.outputs date a) :
    ∃ dir n, i.IsFileOf a.name dir n ∧ o.path = Path.join dir n := by
  rcases isFileOf_of_mem_outputs h ho with ⟨n, hn, hpath, -⟩ | ⟨n, hn, hpath, -⟩
  · exact ⟨i.unitDir, n, Or.inl ⟨rfl, hn⟩, hpath⟩
  · exact ⟨i.helperDir, n, Or.inr ⟨rfl, hn⟩, hpath⟩

/-! ### Names -/

/-- The names of all files that an application has whose units have these names: the last ones
for each unit, and the first one only if a script that reloads it is needed. -/
def fileNames (system : InitSystem) (app : String) (ss : List String) : List String :=
  (app ++ "-reload.sh") :: system.unitName app
    :: ss.flatMap fun s => [system.unitName s, s ++ ".sh"]

/-- The files have different names if the units have. -/
lemma fileNames_nodup {system : InitSystem} {xs : List String} (hxs : xs.Nodup) :
    (fileNames system app (xs.map (stem app))).Nodup := by
  have hne : ∀ x, app ≠ stem app x := by
    intro x h
    simpa [stem, String.toList_append] using congrArg String.toList h
  have hreload : ∀ x, app ++ "-reload.sh" ≠ stem app x ++ ".sh" := by
    intro x h
    simpa [stem, String.toList_append] using congrArg String.toList h
  have hsplit : app ++ "-reload.sh" = app ++ "-reload" ++ ".sh" := by
    rw [String.append_assoc]
    rfl
  rw [fileNames, List.nodup_cons, List.nodup_cons, List.nodup_flatMap]
  -- the reloader, the unit of the application, the two files of an instance, those of two instances
  refine ⟨?_, ?_, ?_, ?_⟩
  · simp only [List.mem_cons, List.mem_flatMap, List.mem_map, List.not_mem_nil, or_false, not_or,
      not_exists, not_and]
    refine ⟨?_, ?_⟩
    · rw [hsplit]
      exact (unitName_ne system _ _).symm
    · rintro _ ⟨x, -, rfl⟩
      refine ⟨?_, hreload x⟩
      rw [hsplit]
      exact (unitName_ne system _ _).symm
  · simp only [List.mem_cons, List.mem_flatMap, List.mem_map, List.not_mem_nil, or_false, not_or,
      not_exists, not_and]
    rintro _ ⟨x, -, rfl⟩
    refine ⟨?_, unitName_ne system _ _⟩
    rw [unitName_eq, unitName_eq, String.append_left_inj]
    exact hne x
  · intro s _
    simpa using unitName_ne system s s
  · refine List.pairwise_map.mpr (hxs.imp fun {x y} hxy => ?_)
    have hstem : stem app x ≠ stem app y := by
      rw [stem, stem, ne_eq, String.append_right_inj]
      exact hxy
    refine List.disjoint_left.mpr fun n hn hn' => ?_
    simp only [List.mem_cons, List.not_mem_nil, or_false] at hn hn'
    rcases hn with rfl | rfl <;> rcases hn' with hn' | hn'
    · rw [unitName_eq, unitName_eq, String.append_left_inj] at hn'
      exact hstem hn'
    · exact unitName_ne system _ _ hn'
    · exact unitName_ne system _ _ hn'.symm
    · rw [String.append_left_inj] at hn'
      exact hstem hn'

lemma map_fileName?_unitOutputs (i : Installer) (date : String) (h : validate a = []) :
    (i.unitOutputs date a).map (fun o => Path.fileName? o.path)
      = (i.system.unitName a.name :: (stems a).flatMap fun s =>
          [i.system.unitName s, s ++ ".sh"]).map some := by
  have happ := Validation.isName_of_validate h
  have hunit : ∀ n, IsUnitName i.system a.name n →
      Path.fileName? (Path.join i.unitDir n) = some n :=
    fun n hn => Path.fileName?_join _ (IsNamedAfter.isEntryName (Or.inl hn) happ)
  have hscript : ∀ n, IsScriptName a.name n → Path.fileName? (Path.join i.helperDir n) = some n :=
    fun n hn => Path.fileName?_join _ ((hn.isNamedAfter i.system).isEntryName happ)
  rw [unitOutputs, List.map_cons, List.map_cons, List.map_flatMap, List.map_flatMap,
    UnitFile.stems_eq a i.helperDir, List.flatMap_map]
  congr 1
  · exact hunit _ (Or.inl rfl)
  · refine List.flatMap_congr fun job hjob => ?_
    obtain ⟨hdir, hmember, -⟩ := UnitFile.eq_of_mem_instances hjob
    have hslash := slash_not_mem_name h hjob
    have hstem : job.stem = stem a.name job.name := by
      rw [Instance.stem, hmember]
    simp only [instanceOutputs, List.map_cons, List.map_nil, unitPath, Instance.helperPath, hdir,
      hstem]
    rw [hunit _ (Or.inr ⟨job.name, hslash, rfl⟩), hscript _ (Or.inr ⟨job.name, hslash, rfl⟩)]

/-- What the files of an application are called at the ends of their paths. -/
lemma map_fileName?_sublist (h : validate a = []) :
    ((i.outputs date a).map fun o => Path.fileName? o.path).Sublist
      ((fileNames i.system a.name (stems a)).map some) := by
  have happ := Validation.isName_of_validate h
  have hreload : Path.IsEntryName (a.name ++ "-reload.sh") :=
    (IsScriptName.isNamedAfter (Or.inl rfl) i.system).isEntryName happ
  have hunits := map_fileName?_unitOutputs i date
    ((validate_reloadHelper a ((i.reloader? date a).map (·.path))).trans h)
  rw [outputs, List.map_append, hunits, fileNames, List.map_cons]
  cases hr : i.reloader? date a with
  | none => exact (List.Sublist.refl _).cons _
  | some o =>
      rw [Option.toList_some, List.map_singleton, (path_of_reloader? hr).1,
        Path.fileName?_join _ hreload]
      exact List.Sublist.refl _

/-- The files of an application without problems end with different names. -/
theorem fileName?_nodup (h : validate a = []) :
    ((i.outputs date a).map fun o => Path.fileName? o.path).Nodup := by
  refine List.Nodup.sublist (map_fileName?_sublist h) ?_
  rw [stems_eq_map]
  exact (fileNames_nodup (Validation.instanceNames_nodup h)).map fun _ _ => Option.some.inj

/-- So they are at different paths. -/
lemma paths_nodup (h : validate a = []) : ((i.outputs date a).map (·.path)).Nodup := by
  refine List.Nodup.of_map Path.fileName? ?_
  rw [List.map_map]
  exact fileName?_nodup h

/-- These paths lead to different places, whatever the two directories are. -/
lemma places_nodup (h : validate a = []) (w : Host.Location) :
    ((i.outputs date a).map fun o => Host.placeFrom w o.path).Nodup := by
  have happ := Validation.isName_of_validate h
  refine List.Nodup.of_map (fun l => l.getLast?.bind Host.Name.text?) ?_
  rw [List.map_map]
  refine (List.map_congr_left fun o ho => ?_) ▸ fileName?_nodup h
  obtain ⟨dir, n, hfile, hpath⟩ := exists_isFileOf_of_mem_outputs h ho
  have hn := hfile.isNamedAfter.isEntryName happ
  rw [hpath, Path.fileName?_join _ hn, Function.comp_apply, hpath, Host.placeFrom_join _ _ hn,
    List.getLast?_concat]
  rfl

end Installer

end ProcUnits.Install
