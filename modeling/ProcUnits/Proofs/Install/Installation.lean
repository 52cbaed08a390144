import ProcUnits.Proofs.Install.Removal

/-!
The installation of an application (`Install` in section 4.7 of the specification).

* `Installer.ownPlaces`: the locations in the two directories with names that belong to the
  application; `Installer.AvoidsLog` says that the log is at none of them;
* `alters_writeAll`, `writeAll_ok`: the files that are written one after the other are all there
  at the end, since none of them is written over another one or over a draft;
* `installation_ends`: how an installation ends: in making room, in writing the files of
  `Installer.outputs`, or in telling the init system of them;
* `changes_installation`: the files that can be others after it, and `isAt_of_installation`: those
  that are there once it has done its work;
* `separates_of_validate`: the files of an application without problems are kept apart.
-/

namespace ProcUnits.Install

open Host (Attempt Location Loses)
open UnitFile (stem)
open Validation (isName validate)

namespace Installer

variable {i : Installer} {app dir n date : String} {a : Application} {h h' : Host} {w l : Location}
  {o : Output} {os : List Output}

/-! ### Locations -/

/-- The locations in the two directories whose names belong to the application. -/
def ownPlaces (i : Installer) (app : String) (w : Location) : Set Location :=
  {l | ∃ dir n, (dir = i.unitDir ∨ dir = i.helperDir) ∧ IsNamedAfter i.system app n
    ∧ l = Host.placeFrom w dir ++ [.text n]}

lemma IsFileOf.mem_ownPlaces (hfile : i.IsFileOf app dir n) (happ : isName app = true)
    (w : Location) : Host.placeFrom w (Path.join dir n) ∈ i.ownPlaces app w :=
  ⟨dir, n, hfile.imp And.left And.left, hfile.isNamedAfter,
    Host.placeFrom_join w dir (hfile.isNamedAfter.isEntryName happ)⟩

/-- No draft is at such a location: what is changed there by writing a file is the file. -/
lemma eq_place_of_mem_writePlaces (happ : isName app = true) (hl : l ∈ i.ownPlaces app w)
    (hn : Path.IsEntryName n) (hw : l ∈ writePlaces (Path.join dir n) w) :
    l = Host.placeFrom w (Path.join dir n) := by
  rcases hw with hw | hdraft
  · exact hw
  · obtain ⟨dir', m, -, hm, rfl⟩ := hl
    have hlast := getLast?_draft w dir hn
    rw [← hdraft, List.getLast?_concat, Option.some.injEq] at hlast
    exact absurd (Host.Name.text.inj hlast) (hm.ne_draft happ n)

/-! ### Writing files -/

/-- The locations that the writing of files changes. -/
def writeAllPlaces (os : List Output) (w : Location) : Set Location :=
  {l | ∃ o ∈ os, l ∈ writePlaces o.path w}

/-- The file is there, with its text and its permission bits. -/
def Output.IsAt (o : Output) (h : Host) : Prop :=
  h.files.file? (h.files.placeOf o.path) = some (Text.Utf8.encode o.text, o.mode)
    ∧ h.files.isFile o.path = true

/-- The file belongs to the application. -/
def Output.IsOf (i : Installer) (app : String) (o : Output) : Prop :=
  ∃ dir n, i.IsFileOf app dir n ∧ o.path = Path.join dir n

/-- A file stays there while it is not changed. -/
lemma Output.IsAt.of_changes {S T : Set Location} (hat : o.IsAt h) (hc : h.Changes S T h')
    (hlog : ¬ h.LogsTo (h.files.placeOf o.path)) (hS : h.files.placeOf o.path ∉ S)
    (hT : h.files.placeOf o.path ∉ T) : o.IsAt h' := by
  have hfile := hc.file?_eq hlog hS hT
  refine ⟨?_, hc.keepsDirs.isFile hat.2 ?_⟩
  · rw [hc.placeOf_eq, hfile, hat.1]
  · rw [hfile, hat.1]
    simp

lemma alters_writeAll (os : List Output) :
    (os.forM Output.write).Alters (writeAllPlaces os) (writeAllPlaces os) := by
  refine Attempt.alters_forM fun o ho => ?_
  exact (alters_writeFile o.path o.text o.mode).mono (fun w l hl => ⟨o, ho, hl⟩)
    fun w l hl => ⟨o, ho, hl⟩

lemma raises_writeAll (os : List Output) : (os.forM Output.write).Raises Error.IsRefusal :=
  Attempt.raises_forM fun o => raises_writeFile o.path o.text o.mode

/-- At a location of the application only the file is written that is meant to be there. -/
lemma eq_place_of_mem_writeAllPlaces (happ : isName app = true)
    (hos : ∀ o ∈ os, o.IsOf i app) {app' : String} (happ' : isName app' = true)
    (hl : l ∈ i.ownPlaces app' w) (hw : l ∈ writeAllPlaces os w) :
    ∃ o ∈ os, l = Host.placeFrom w o.path := by
  obtain ⟨o, ho, hlo⟩ := hw
  obtain ⟨dir, n, hfile, hpath⟩ := hos o ho
  rw [hpath] at hlo
  refine ⟨o, ho, hpath ▸ ?_⟩
  exact eq_place_of_mem_writePlaces happ' hl (hfile.isNamedAfter.isEntryName happ) hlo

/-- No location of the application is that of the log. -/
def AvoidsLog (i : Installer) (app : String) (h : Host) : Prop :=
  ∀ l ∈ i.ownPlaces app h.files.workingDir, ¬ h.LogsTo l

lemma AvoidsLog.of_changes {S T : Set Location} (hlog : i.AvoidsLog app h)
    (hc : h.Changes S T h') : i.AvoidsLog app h' := by
  intro l hl
  rw [hc.workingDir_eq] at hl
  rw [hc.logsTo_iff]
  exact hlog l hl

/-- A file of the application stays there while nothing but the log changes. -/
lemma Output.IsOf.isAt (ho : o.IsOf i app) (happ : isName app = true) (hlog : i.AvoidsLog app h)
    (hc : h.Changes ∅ ∅ h') (hat : o.IsAt h) : o.IsAt h' := by
  obtain ⟨dir, n, hfile, hpath⟩ := ho
  have hown : h.files.placeOf o.path ∈ i.ownPlaces app h.files.workingDir := by
    rw [hpath]
    exact hfile.mem_ownPlaces happ _
  exact hat.of_changes hc (hlog _ hown) (Set.notMem_empty _) (Set.notMem_empty _)

/-- Files that are written one after the other are all there at the end. -/
theorem writeAll_ok (happ : isName app = true) (hos : ∀ o ∈ os, o.IsOf i app)
    (hplaces : (os.map fun o => h.files.placeOf o.path).Nodup) (hlog : i.AvoidsLog app h)
    (he : (os.forM Output.write).Ends h (.ok ()) h') : ∀ o ∈ os, o.IsAt h' := by
  induction os generalizing h with
  | nil => exact fun o ho => absurd ho List.not_mem_nil
  | cons o os ih =>
      obtain ⟨_, h₁, hwrite, hrest⟩ := Attempt.ends_bind_ok.mp he
      have hc := alters_writeFile o.path o.text o.mode hwrite
      have hos' : ∀ o' ∈ os, o'.IsOf i app := fun o' ho' => hos o' (List.mem_cons_of_mem o ho')
      rw [List.map_cons, List.nodup_cons] at hplaces
      have hplaces₁ : (os.map fun o => h₁.files.placeOf o.path).Nodup := by
        simp only [hc.placeOf_eq]
        exact hplaces.2
      have hrest' := ih hos' hplaces₁ (hlog.of_changes hc) hrest
      intro o' ho'
      rcases List.mem_cons.mp ho' with rfl | ho'
      swap
      · exact hrest' o' ho'
      obtain ⟨dir, n, hfile, hpath⟩ := hos o' List.mem_cons_self
      have hown : h.files.placeOf o'.path ∈ i.ownPlaces app h.files.workingDir := by
        rw [hpath]
        exact hfile.mem_ownPlaces happ _
      have hat : o'.IsAt h₁ := by
        rw [Output.write, hpath] at hwrite
        rw [hpath] at hown
        rw [Output.IsAt, hpath, hc.placeOf_eq]
        exact writeFile_ok (hfile.isNamedAfter.isEntryName happ) (hlog _ hown) hwrite
      -- none of the later files is written over it
      rw [← hc.workingDir_eq, ← hc.placeOf_eq] at hown
      have hnot : h₁.files.placeOf o'.path ∉ writeAllPlaces os h₁.files.workingDir := by
        intro hmem
        obtain ⟨q, hq, heq⟩ := eq_place_of_mem_writeAllPlaces happ hos' happ hown hmem
        refine hplaces.1 (List.mem_map.mpr ⟨q, hq, ?_⟩)
        rw [← hc.placeOf_eq, ← hc.placeOf_eq]
        exact heq.symm
      exact hat.of_changes (alters_writeAll os hrest) (hlog.of_changes hc _ hown) hnot hnot

/-! ### The installation -/

/-- The installation, of which the error alone matters. -/
def installation (i : Installer) (a : Application) : Attempt Error Unit :=
  ExceptT.mk (Prod.snd <$> i.install a)

/-- It is made of three steps, and fails where one of them does. -/
lemma installation_eq (i : Installer) (a : Application) : i.installation a = (do
    i.clear a
    let path ← i.writeReloader a
    i.activate { a with reloadHelper := path }) := by
  refine ExceptT.ext ?_
  rw [ExceptT.run_bind]
  refine (map_bind ..).trans (bind_congr fun r₁ => ?_)
  cases r₁ with
  | error e => exact map_pure ..
  | ok _ =>
      rw [ExceptT.run_bind]
      refine (map_bind ..).trans (bind_congr fun r₂ => ?_)
      cases r₂ with
      | error e => exact map_pure ..
      | ok path =>
          refine (map_bind ..).trans ?_
          simp only [map_pure, bind_pure]

/-- The script that reloads the application is written if one is needed. -/
lemma writeReloader_ends {r : Except Error (Option String)}
    (he : (i.writeReloader a).Ends h r h') :
    (∃ e, ((i.reloader? h.date a).toList.forM Output.write).Ends h (.error e) h' ∧ r = .error e)
      ∨ (((i.reloader? h.date a).toList.forM Output.write).Ends h (.ok ()) h'
        ∧ r = .ok ((i.reloader? h.date a).map (·.path))) := by
  rw [writeReloader, Attempt.ends_get_bind] at he
  cases hr : i.reloader? h.date a with
  | none =>
      rw [hr] at he
      obtain ⟨rfl, rfl⟩ := Attempt.ends_pure.mp he
      exact Or.inr ⟨Attempt.ends_pure.mpr ⟨rfl, rfl⟩, rfl⟩
  | some o =>
      rw [hr] at he
      rcases Attempt.ends_bind.mp he with ⟨e, hwrite, rfl⟩ | ⟨_, h₁, hwrite, he⟩
      · exact Or.inl ⟨e, Attempt.ends_bind_error.mpr (Or.inl hwrite), rfl⟩
      · obtain ⟨rfl, rfl⟩ := Attempt.ends_pure.mp he
        refine Or.inr ⟨?_, rfl⟩
        exact Attempt.ends_bind_ok.mpr ⟨_, h', hwrite, Attempt.ends_pure.mpr ⟨rfl, rfl⟩⟩

/-- What is done once all files are written. -/
def finish (i : Installer) (app : String) : Attempt Error Unit := do
  i.announce app
  i.conclude s!"Application {app} installed"

lemma loses_announce (i : Installer) (app : String) : (i.announce app).Within (Loses ∅) := by
  rw [announce, enable_eq]
  exact Attempt.within_ite (.bind (loses_tell ..) fun _ => Attempt.loses_emit ..)
    (Attempt.within_pure ())

lemma loses_finish (i : Installer) (app : String) : (i.finish app).Within (Loses ∅) :=
  .bind (i.loses_announce app) fun _ => i.loses_conclude _

/-- How an installation ends: in making room for the application, or in writing its files, or after
that. -/
theorem installation_ends {r : Except Error Unit} (he : (i.installation a).Ends h r h') :
    (∃ e, (i.clear a).Ends h (.error e) h' ∧ r = .error e)
      ∨ ∃ h₁, (i.clear a).Ends h (.ok ()) h₁
        ∧ ((∃ e, ((i.outputs h₁.date a).forM Output.write).Ends h₁ (.error e) h' ∧ r = .error e)
          ∨ ∃ h₂, ((i.outputs h₁.date a).forM Output.write).Ends h₁ (.ok ()) h₂
            ∧ (i.finish a.name).Ends h₂ r h') := by
  rw [installation_eq] at he
  rcases Attempt.ends_bind.mp he with ⟨e, hclear, rfl⟩ | ⟨_, h₁, hclear, he₁⟩
  · exact Or.inl ⟨e, hclear, rfl⟩
  refine Or.inr ⟨h₁, hclear, ?_⟩
  -- the reloader comes first, as the unit of the application has its path
  have houtputs : (i.outputs h₁.date a).forM Output.write = (do
      (i.reloader? h₁.date a).toList.forM Output.write
      (i.unitOutputs h₁.date
        { a with reloadHelper := (i.reloader? h₁.date a).map (·.path) }).forM Output.write) :=
    List.forM_append
  rw [houtputs]
  rcases Attempt.ends_bind.mp he₁ with ⟨e, hreloader, rfl⟩ | ⟨path, h₂, hreloader, he₂⟩
  · rcases writeReloader_ends hreloader with ⟨e', hwrite, hr⟩ | ⟨-, hr⟩
    · cases hr
      exact Or.inl ⟨e, Attempt.ends_bind_error.mpr (Or.inl hwrite), rfl⟩
    · exact absurd hr (by simp)
  · rcases writeReloader_ends hreloader with ⟨e', -, hr⟩ | ⟨hwrite, hr⟩
    · exact absurd hr (by simp)
    · cases hr
      have hdate : h₂.date = h₁.date := (alters_writeAll _ hwrite).date_eq
      rw [activate, Attempt.ends_get_bind, hdate] at he₂
      rcases Attempt.ends_bind.mp he₂ with ⟨e, hunits, rfl⟩ | ⟨_, h₃, hunits, hfinish⟩
      · exact Or.inl ⟨e, Attempt.ends_bind_error.mpr (Or.inr ⟨_, h₂, hwrite, hunits⟩), rfl⟩
      · exact Or.inr ⟨h₃, Attempt.ends_bind_ok.mpr ⟨_, h₂, hwrite, hunits⟩, hfinish⟩

/-! ### What an installation changes -/

lemma alters_clear (i : Installer) (happ : isName a.name = true) :
    (i.clear a).Alters (i.filePlaces a.name) fun _ => ∅ :=
  .bind (loses_checkSupport ..).alters fun _ => .bind Attempt.alters_get fun _ =>
    Attempt.alters_ite (.bind (Host.alters_emit ..) fun _ =>
      .bind (i.alters_uninstall happ) fun _ => alters_makeDirs _) (alters_makeDirs _)

/-- An installation changes files of the application only, and the drafts of those that it writes.
What it writes are the files of the application. -/
theorem changes_installation {r : Except Error Unit} (happ : isName a.name = true)
    (he : (i.installation a).Ends h r h') :
    h.Changes (i.filePlaces a.name h.files.workingDir
        ∪ writeAllPlaces (i.outputs h.date a) h.files.workingDir)
      (writeAllPlaces (i.outputs h.date a) h.files.workingDir) h' := by
  rcases installation_ends he with ⟨e, hclear, rfl⟩ | ⟨h₁, hclear, hwrite⟩
  · exact (i.alters_clear happ hclear).mono Set.subset_union_left (Set.empty_subset _)
  have hc₁ := i.alters_clear happ hclear
  rw [hc₁.date_eq] at hwrite
  refine (hc₁.mono Set.subset_union_left (Set.empty_subset _)).trans ?_
  rcases hwrite with ⟨e, hwrite, rfl⟩ | ⟨h₂, hwrite, hfinish⟩
  · have hc₂ := alters_writeAll _ hwrite
    rw [hc₁.workingDir_eq] at hc₂
    exact hc₂.mono Set.subset_union_right subset_rfl
  · have hc₂ := alters_writeAll _ hwrite
    rw [hc₁.workingDir_eq] at hc₂
    exact (hc₂.mono Set.subset_union_right subset_rfl).trans
      (i.loses_finish a.name hfinish).changes

lemma ends_installation {a' : Application} {r : Except Error Unit}
    (hrun : (i.install a).run h = ((a', r), h')) : (i.installation a).Ends h r h' := by
  have hinstall : (i.installation a).run.run h = Prod.map Prod.snd id ((i.install a).run h) := rfl
  rw [Attempt.Ends, hinstall, hrun]
  rfl

lemma isOf_of_mem_outputs (ha : validate a = []) (ho : o ∈ i.outputs date a) : o.IsOf i a.name :=
  exists_isFileOf_of_mem_outputs ha ho

/-- Files that were written are there as long as nothing is written over them. -/
lemma isAt_of_writeAll (ha : validate a = []) (hlog : i.AvoidsLog a.name h)
    (hwrite : ((i.outputs date a).forM Output.write).Ends h (.ok ()) h₁)
    (hc : h₁.Changes ∅ ∅ h') (ho : o ∈ i.outputs date a) : o.IsAt h' := by
  have happ := Validation.isName_of_validate ha
  have hat :=
    writeAll_ok happ (fun o => isOf_of_mem_outputs ha) (places_nodup ha _) hlog hwrite o ho
  have hlog₁ := hlog.of_changes (alters_writeAll _ hwrite)
  exact (isOf_of_mem_outputs ha ho).isAt happ hlog₁ hc hat

/-- After an installation that has done its work all files of the application are there. -/
theorem isAt_of_installation (ha : validate a = []) (hlog : i.AvoidsLog a.name h)
    (he : (i.installation a).Ends h (.ok ()) h') : ∀ o ∈ i.outputs h.date a, o.IsAt h' := by
  have happ := Validation.isName_of_validate ha
  rcases installation_ends he with ⟨e, -, hr⟩ | ⟨h₁, hclear, ⟨e, -, hr⟩ | ⟨h₂, hwrite, hfinish⟩⟩
  · cases hr
  · cases hr
  intro o ho
  have hc₁ := i.alters_clear happ hclear
  rw [hc₁.date_eq] at hwrite
  -- the init system is told of them only then
  exact isAt_of_writeAll ha (hlog.of_changes hc₁) hwrite (i.loses_finish a.name hfinish).changes ho

/-! ### The files that an installation writes -/

/-- The files of an application are kept apart: from each other, and from all that is not an entry
of one of the two directories. -/
structure Separates (i : Installer) (date : String) (a : Application) : Prop where
  paths_nodup : ((i.outputs date a).map (·.path)).Nodup
  /-- The paths lead to different places, wherever relative paths start. -/
  places_nodup : ∀ w, ((i.outputs date a).map fun o => Host.placeFrom w o.path).Nodup
  stems_nodup : (UnitFile.stems a).Nodup
  isEntryOf_appUnit : Host.IsEntryOf (i.appUnitPath a.name) i.unitDir
  isEntryOf_unit : ∀ job ∈ UnitFile.instances a i.helperDir,
    Host.IsEntryOf (i.unitPath job.stem) i.unitDir
  isEntryOf_helper : ∀ job ∈ UnitFile.instances a i.helperDir,
    Host.IsEntryOf job.helperPath i.helperDir
  isEntryOf_reloader : Host.IsEntryOf (i.reloaderPath a.name) i.helperDir
  /-- A file that is new after an installation, or has other content, is one of these, or was left
  over as the draft of one. -/
  eq_place : ∀ ⦃h a' r h'⦄, (i.install a).run h = ((a', r), h') → h.date = date →
    ∀ l f, ¬ h.LogsTo l → h'.files.file? l = some f → h.files.file? l ≠ some f →
      ∃ o ∈ i.outputs date a,
        l = h.files.placeOf o.path ∨ l = h.files.placeOf (draftPath o.path)

/-- The files of an application without problems are kept apart, whatever the directories are
(sections 4.5 and D). -/
theorem separates_of_validate (i : Installer) (date : String) (ha : validate a = []) :
    i.Separates date a := by
  have happ := Validation.isName_of_validate ha
  have hunit : ∀ n, IsUnitName i.system a.name n →
      Host.IsEntryOf (Path.join i.unitDir n) i.unitDir :=
    fun n hn => Host.isEntryOf_join _ (IsNamedAfter.isEntryName (Or.inl hn) happ)
  have hscript : ∀ n, IsScriptName a.name n →
      Host.IsEntryOf (Path.join i.helperDir n) i.helperDir :=
    fun n hn => Host.isEntryOf_join _ ((hn.isNamedAfter i.system).isEntryName happ)
  refine ⟨paths_nodup ha, places_nodup ha, stems_nodup ha, hunit _ (Or.inl rfl), ?_, ?_,
    hscript _ (Or.inl rfl), ?_⟩
  · intro job hjob
    obtain ⟨-, hmember, -⟩ := UnitFile.eq_of_mem_instances hjob
    refine hunit _ (Or.inr ⟨job.name, slash_not_mem_name ha hjob, ?_⟩)
    rw [UnitFile.Instance.stem, hmember]
  · intro job hjob
    obtain ⟨hdir, hmember, -⟩ := UnitFile.eq_of_mem_instances hjob
    rw [UnitFile.Instance.helperPath, hdir]
    refine hscript _ (Or.inr ⟨job.name, slash_not_mem_name ha hjob, ?_⟩)
    rw [UnitFile.Instance.stem, hmember]
  · -- what is new is an output, or the draft of one that could not be moved
    intro h a' r h' hrun hdate l f hlog hnew hold
    have hc := changes_installation happ (ends_installation hrun)
    rw [hdate] at hc
    rcases hc.file?_or l hlog with heq | ⟨-, hnone⟩ | ⟨o, ho, hplace⟩
    · exact absurd (heq ▸ hnew) hold
    · exact absurd (hnone ▸ hnew) (by simp)
    · exact ⟨o, ho, hplace⟩

/-- An application of two services, one of which runs twice. -/
def shop : Application where
  name := "shop"
  user := "www"
  group := "www"
  workingDir := "/srv/shop"
  services :=
    [{ name := "web", command := "serve", options := { count := 2, reloadSignal := some "HUP" } },
      { name := "mail", command := "send" }]
  version := .v2

/-- Units and scripts for systemd. -/
def shopInstaller : Installer where
  system := .systemd
  helperDir := "/scripts"
  unitDir := "/units"

/-- The shop has four units and four scripts, which are kept apart. -/
theorem separates_shop : (shopInstaller.outputs "today" shop).length = 8
    ∧ shopInstaller.Separates "today" shop :=
  ⟨by decide +kernel, separates_of_validate _ _ (by decide +kernel)⟩

end Installer

end ProcUnits.Install
