import Mathlib.Tactic.Common
import ProcUnits.Procfile.Read
import ProcUnits.Proofs.Outcome
import ProcUnits.Proofs.Procfile.Clause
import ProcUnits.Proofs.Resolution
import ProcUnits.Proofs.Variables

/-!
Applications that legacy files declare (section 4.2 of the specification).

A line says little of its service: commands, a directory, a log and variables. All other options
are those of the host.

* `legacyOptions`: the options of such a service;
* `IsLegacy`: what holds of a service that a line declares, once its options are decided;
* `isLegacy_of_ofText`: it holds of all services of a legacy file.
-/

namespace ProcUnits.Procfile

variable {a : Application} {d : Defaults} {s : Service} {text line : List Char}

/-- The options of a service that a line declares, together with those of the host. -/
def legacyOptions (d : Defaults) (workingDir logFile : Option String) (environment : Variables) :
    Options where
  environment := environment
  workingDir := workingDir
  logFile := logFile
  killTimeout := d.killTimeout
  limits := ⟨d.fileLimit, d.processLimit, d.memoryLimit⟩
  respawn :=
    if d.respawnEnabled then ⟨some true, d.respawnCount, d.respawnInterval, d.respawnDelay⟩
    else {}

/-- The command of the service was scanned, its directory and its log are not empty where they are
given, and its options are those of a legacy file. -/
structure IsLegacy (d : Defaults) (s : Service) : Prop where
  command_eq : ∃ main, s.command = (Clause.scan main).command
  workingDir_ne : s.options.workingDir ≠ some ""
  logFile_ne : s.options.logFile ≠ some ""
  options_eq : s.options =
    legacyOptions d s.options.workingDir s.options.logFile s.options.environment

/-! ### Lines -/

/-- One to three pieces are commands, in this order. -/
lemma stages?_eq_some_iff {pre post : Option (List Char)} {main : List Char} :
    stages? ps = some (pre, main, post)
      ↔ ps = pre.toList ++ main :: post.toList ∧ (post.isSome = true → pre.isSome = true) := by
  constructor
  · intro h
    unfold stages? at h
    split at h
    · cases h; simp
    · cases h; simp
    · cases h; simp
    · cases h
  · rintro ⟨rfl, hpost⟩
    cases pre <;> cases post <;> simp_all [stages?]

/-- The service of a line, before its other options are decided. -/
lemma serviceOfLine_eq_ok (h : serviceOfLine line = .ok s) :
    ∃ main dir, s.command = (Clause.scan main).command ∧ dir ≠ some "" ∧
      s.options =
        { workingDir := dir
          logFile := (Clause.scan main).log
          environment := (Clause.scan main).environment } := by
  unfold serviceOfLine at h
  split at h
  · cases h
  · next label fragment _ =>
      simp only at h
      split_ifs at h
      split at h
      · cases h
      · next pre main post _ =>
          obtain rfl := Except.ok.inj h
          refine ⟨main, _, rfl, fun hdir => ?_, rfl⟩
          obtain ⟨cs, hcs, hempty⟩ := Option.map_eq_some_iff.mp hdir
          have hne : cs ≠ [] := by simpa using (Option.filter_eq_some_iff.mp hcs).2
          exact hne (String.ofList_eq_empty_iff.mp hempty)

/-- Lines are read one by one. -/
lemma servicesOfLines_eq_mapM (ls : List (List Char)) :
    servicesOfLines ls = ls.mapM serviceOfLine := by
  induction ls with
  | nil => rfl
  | cons l ls ih =>
      rw [servicesOfLines, List.mapM_cons, ih]

lemma servicesOfLines_eq_ok {ls : List (List Char)} {ss : List Service}
    (h : servicesOfLines ls = .ok ss) (hs : s ∈ ss) : ∃ line ∈ ls, serviceOfLine line = .ok s := by
  rw [servicesOfLines_eq_mapM, mapM_eq_ok_iff] at h
  induction h with
  | nil => cases hs
  | cons hl _ ih =>
      rcases List.mem_cons.mp hs with rfl | hs
      · exact ⟨_, List.mem_cons_self, hl⟩
      · obtain ⟨line, hmem, hline⟩ := ih hs
        exact ⟨line, List.mem_cons_of_mem _ hmem, hline⟩

/-! ### Options -/

/-- The options that a line leaves open are those of the host. -/
lemma resolve_options_eq {dir log : Option String} {vs : Variables} (hdir : dir ≠ some "")
    (hlog : log ≠ some "") :
    (Options.mergeShared { workingDir := dir, logFile := log, environment := vs } {}
      |>.fillFromDefaults d) = legacyOptions d dir log vs := by
  have henabled : (none : Option Bool).or none = none := rfl
  simp only [Options.mergeShared, Options.fillFromDefaults, legacyOptions,
    Respawn.fillFromDefaults, firstText_none hdir, firstText_none hlog, Variables.union_empty,
    firstNumber_zero_left, henabled]
  cases d.respawnEnabled <;> rfl

/-- A service that a line declares. -/
lemma isLegacy_resolve (h : serviceOfLine line = .ok s) : IsLegacy d (s.resolve {} d) := by
  obtain ⟨main, dir, hcommand, hdir, hoptions⟩ := serviceOfLine_eq_ok h
  have hlog := Clause.log_scan_ne main
  have hresolved : (s.resolve {} d).options
      = legacyOptions d dir (Clause.scan main).log (Clause.scan main).environment := by
    rw [Service.resolve, hoptions]
    exact resolve_options_eq hdir hlog
  refine ⟨⟨main, hcommand⟩, ?_, ?_, ?_⟩ <;> rw [hresolved]
  · exact hdir
  · exact hlog
  · rfl

/-! ### Applications -/

/-- An application that a legacy file declares is that of the host, with the services of its
lines. -/
theorem isLegacy_of_ofText (h : ofText .v1 text d = .ok a) :
    a = .ofDefaults .v1 d a.services ∧ ∀ s ∈ a.services, IsLegacy d s := by
  simp only [ofText, draftOfText, bind_eq_ok_iff, pure_eq_ok_iff] at h
  obtain ⟨draft, ⟨ss, hread, rfl⟩, rfl⟩ := h
  refine ⟨rfl, fun s hs => ?_⟩
  obtain ⟨s', hs', rfl⟩ := List.mem_map.mp hs
  obtain ⟨line, -, hline⟩ := servicesOfLines_eq_ok hread hs'
  exact isLegacy_resolve hline

lemma version_of_ofText (h : ofText .v1 text d = .ok a) : a.version = .v1 := by
  rw [(isLegacy_of_ofText h).1]
  rfl

/-- A legacy file does not say where its services run. -/
lemma workingDir_of_ofText (h : ofText .v1 text d = .ok a) : a.workingDir = d.workingDir := by
  rw [(isLegacy_of_ofText h).1]
  rfl

end ProcUnits.Procfile
