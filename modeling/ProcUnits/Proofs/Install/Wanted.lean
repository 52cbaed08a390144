import ProcUnits.Proofs.Install.Installation
import ProcUnits.Proofs.UnitFile.Wants

/-!
The units that the unit of an application wants, and those that are written with it (the dependency
clauses of section 4.6 of the specification).

* `expandedNames`: the names of the instances of a service, by its count;
* `Installer.unitPaths`: the paths of the units among the files of an application; `unitPaths_eq`
  says that these are its own unit, and then one for each name;
* `isFile_of_mem_unitPaths`, `file?_of_notMem_unitPaths`: the units that are there after an
  installation;
* `NamesAgree`, `namesAgree`: the instances, the names that the unit of the application wants, the
  names that the script reloads and the units that are written are the same.
-/

namespace ProcUnits.Install

open Host (Attempt)
open UnitFile
open Validation (validate)

variable {a : Application} {date : String} {i : Installer} {h h' : Host}

/-- The names of the instances of a service that is to run so many times. -/
def expandedNames (count : Int) (name : String) : List String :=
  if 0 < count then (List.range count.toNat).map fun k => name ++ toString (k + 1) else [name]

lemma instanceNames_eq (o : Options) (name : String) :
    o.instanceNames name = expandedNames o.count name := by
  rw [Options.instanceNames, Options.instances, Options.isMultiInstance, expandedNames]
  by_cases hcount : 0 < o.count <;> simp [hcount, Options.instanceName]

namespace Installer

/-- The paths of the units among the files of an application. -/
def unitPaths (i : Installer) (date : String) (a : Application) : List String :=
  ((i.outputs date a).filter fun o => o.mode = unitMode).map (·.path)

/-- These are the unit of the application, and one for each name. -/
lemma unitPaths_eq (i : Installer) (date : String) (a : Application) :
    i.unitPaths date a = i.appUnitPath a.name :: (stems a).map i.unitPath := by
  have hreloader : (i.reloader? date a).toList.filter (fun o => o.mode = unitMode) = [] := by
    cases hr : i.reloader? date a with
    | none => rfl
    | some o =>
        have hmode := (path_of_reloader? hr).2
        simp [hmode, scriptMode, unitMode]
  have hinstance (job : Instance) :
      ((i.instanceOutputs date job).filter fun o => o.mode = unitMode).map (·.path)
        = [i.unitPath job.stem] := by
    simp [instanceOutputs, scriptMode, unitMode]
  have hunits (a : Application) :
      ((i.unitOutputs date a).filter fun o => o.mode = unitMode).map (·.path)
        = i.appUnitPath a.name :: (stems a).map i.unitPath := by
    rw [unitOutputs, List.filter_cons_of_pos (by simp [appOutput]), List.filter_flatMap,
      List.map_cons, List.map_flatMap, stems_eq a i.helperDir, List.map_map]
    simp only [hinstance]
    rw [← List.map_eq_flatMap]
    rfl
  rw [unitPaths, outputs, List.filter_append, hreloader, List.nil_append, hunits]
  rfl

lemma mem_unitPaths_of_output {o : Output} (ho : o ∈ i.outputs date a) (hmode : o.mode = unitMode) :
    o.path ∈ i.unitPaths date a :=
  List.mem_map_of_mem (List.mem_filter.mpr ⟨ho, by simpa using hmode⟩)

/-- After an installation that has done its work these units are there. -/
lemma isFile_of_mem_unitPaths (ha : validate a = []) (hlog : i.AvoidsLog a.name h)
    (he : (i.installation a).Ends h (.ok ()) h') {p : String} (hp : p ∈ i.unitPaths h.date a) :
    h'.files.isFile p = true := by
  obtain ⟨o, ho, rfl⟩ := List.mem_map.mp hp
  exact (isAt_of_installation ha hlog he o (List.mem_filter.mp ho).1).2

/-- Another unit of the application is as it was after an installation, or it has gone. -/
lemma file?_of_notMem_unitPaths {r : Except Error Unit} {n : String} (ha : validate a = [])
    (hlog : i.AvoidsLog a.name h) (he : (i.installation a).Ends h r h')
    (hn : IsUnitName i.system a.name n) (hnot : Path.join i.unitDir n ∉ i.unitPaths h.date a) :
    h'.files.file? (h.files.placeOf (Path.join i.unitDir n))
        = h.files.file? (h.files.placeOf (Path.join i.unitDir n))
      ∨ h'.files.file? (h.files.placeOf (Path.join i.unitDir n)) = none := by
  have happ := Validation.isName_of_validate ha
  have hentry : ∀ {m}, IsUnitName i.system a.name m → Path.IsEntryName m :=
    fun hm => IsNamedAfter.isEntryName (Or.inl hm) happ
  have hown := IsFileOf.mem_ownPlaces (Or.inl ⟨rfl, hn⟩) happ h.files.workingDir
  rcases (changes_installation happ he).file?_or _ (hlog _ hown) with heq | ⟨-, hgone⟩ | hwritten
  · exact Or.inl heq
  · exact Or.inr hgone
  -- what is written over a unit is a unit of the same name
  obtain ⟨o, ho, hplace⟩ := eq_place_of_mem_writeAllPlaces happ
    (fun o => isOf_of_mem_outputs ha) happ hown hwritten
  rcases isFileOf_of_mem_outputs ha ho with ⟨m, hm, hpath, hmode⟩ | ⟨m, hm, hpath, -⟩
  · rw [hpath, Host.placeFrom_join _ _ (hentry hn), Host.placeFrom_join _ _ (hentry hm)] at hplace
    obtain rfl : n = m := by simpa using congrArg List.getLast? hplace
    exact absurd (hpath ▸ mem_unitPaths_of_output ho hmode) hnot
  · have hscript : Path.IsEntryName m := (hm.isNamedAfter i.system).isEntryName happ
    rw [hpath, Host.placeFrom_join _ _ (hentry hn), Host.placeFrom_join _ _ hscript] at hplace
    have hsame : n = m := by simpa using congrArg List.getLast? hplace
    exact absurd hsame (hn.ne_of_isScriptName hm)

end Installer

/-- All that names the units of the instances of an application has the same names, in the same
order. -/
structure NamesAgree (a : Application) : Prop where
  /-- The instances have these names, wherever their scripts are. -/
  instances_eq : ∀ dir, (instances a dir).map Instance.stem = stems a
  /-- The counts of the services ask for these instances. -/
  stems_eq : stems a = a.services.flatMap fun s =>
    (expandedNames s.options.count s.name).map (stem a.name)
  /-- The lines that want the units of the instances are made of groups of these names. -/
  wants : ∃ gs : List (List String), gs.flatten = stems a ∧ (∀ g ∈ gs, g ≠ [])
    ∧ Systemd.wantsLines a = gs.map fun g => Systemd.wantsKey ++ joined (g.map Systemd.unitName)
  /-- These lines are in the unit of the application. It wants no other units but those of its
  dependencies. -/
  lines : ∀ date, (Systemd.appTemplate date a).lines.filter (fun l => wantsMark.isOn l.toList)
    = dependencyWants a ++ Systemd.wantsLines a
  /-- The script that reloads the application names all units. -/
  reloads : a.isReloadSignalSet = true → ∀ date, ∃ front, Systemd.reloadHelper date a
    = some (front ++ ("systemctl reload-or-restart "
      ++ joined ((stems a).map Systemd.unitName)) ++ "\n")
  /-- Names without spaces can be read back in both texts. -/
  read : HasPlainNames a → wantedNames (Systemd.wantsLines a) = stems a
    ∧ ∀ date, ∀ script ∈ Systemd.reloadHelper date a, reloadedNames script = stems a
  /-- The units among the files of the application are its own and those of these names. -/
  paths : ∀ (i : Installer) date,
    i.unitPaths date a = i.appUnitPath a.name :: (stems a).map i.unitPath
  /-- If the application has no problems, these units are there after an installation that succeeds.
  Any other unit of the application is as it was then, or it has gone. -/
  units_there : validate a = [] → ∀ (i : Installer) (h h' : Host) a', i.AvoidsLog a.name h →
    (i.install a).run h = ((a', .ok ()), h') →
      (∀ p ∈ i.unitPaths h.date a, h'.files.isFile p = true)
      ∧ ∀ n, IsUnitName i.system a.name n → Path.join i.unitDir n ∉ i.unitPaths h.date a →
        h'.files.file? (h.files.placeOf (Path.join i.unitDir n))
            = h.files.file? (h.files.placeOf (Path.join i.unitDir n))
          ∨ h'.files.file? (h.files.placeOf (Path.join i.unitDir n)) = none
  /-- Once there is room, an installation that succeeds writes the files of the application. -/
  written : ∀ (i : Installer) (h h' : Host) a', (i.install a).run h = ((a', .ok ()), h') →
    ∃ h₁ h₂ : Host, (i.clear a).Ends h (.ok ()) h₁
      ∧ ((i.outputs h₁.date a).forM Installer.Output.write).Ends h₁ (.ok ()) h₂
      ∧ (i.finish a.name).Ends h₂ (.ok ()) h'

/-- The names of the instances, those that the unit of the application wants, those that the script
reloads and those of the units that are written are the same (section 4.6). If the application has
no problems, these are the units that are there once it was installed. -/
theorem namesAgree (a : Application) : NamesAgree a where
  instances_eq dir := (UnitFile.stems_eq a dir).symm
  stems_eq := by
    rw [stems]
    exact List.flatMap_congr fun s _ => congrArg _ (instanceNames_eq s.options s.name)
  wants := wantsLines_eq a
  lines date := filter_lines_appTemplate date a
  reloads hreload date := reloadHelper_eq hreload date
  read hplain := ⟨wantedNames_wantsLines hplain, fun _ _ hscript =>
    reloadedNames_reloadHelper hplain hscript⟩
  paths i date := i.unitPaths_eq date a
  units_there ha i h h' a' hlog hrun :=
    have he := Installer.ends_installation hrun
    ⟨fun _ => Installer.isFile_of_mem_unitPaths ha hlog he,
      fun _ => Installer.file?_of_notMem_unitPaths ha hlog he⟩
  written := by
    intro i h h' a' hrun
    rcases Installer.installation_ends (Installer.ends_installation hrun) with
      ⟨e, -, he⟩ | ⟨h₁, hclear, ⟨e, -, he⟩ | ⟨h₂, hwrite, hfinish⟩⟩
    · exact absurd he (by simp)
    · exact absurd he (by simp)
    · exact ⟨h₁, h₂, hclear, hwrite, hfinish⟩

/-- The shop wants and reloads the two instances of one service, and the one of the other. -/
theorem namesAgree_shop :
    wantedNames (Systemd.wantsLines Installer.shop) = ["shop_web1", "shop_web2", "shop_mail"]
    ∧ (∃ script ∈ Systemd.reloadHelper "today" Installer.shop,
      reloadedNames script = ["shop_web1", "shop_web2", "shop_mail"])
    ∧ Installer.shopInstaller.unitPaths "today" Installer.shop
      = ["/units/shop.service", "/units/shop_web1.service", "/units/shop_web2.service",
        "/units/shop_mail.service"] := by
  have hagree := namesAgree Installer.shop
  have hplain : HasPlainNames Installer.shop := ⟨by decide, by decide⟩
  have hstems : stems Installer.shop = ["shop_web1", "shop_web2", "shop_mail"] := by
    decide +kernel
  obtain ⟨hwanted, hreloaded⟩ := hagree.read hplain
  obtain ⟨front, hscript⟩ := hagree.reloads (by decide) "today"
  refine ⟨hwanted.trans hstems, ⟨_, hscript, ?_⟩, ?_⟩
  · exact (hreloaded "today" _ hscript).trans hstems
  · rw [hagree.paths, hstems]
    decide +kernel

end ProcUnits.Install
