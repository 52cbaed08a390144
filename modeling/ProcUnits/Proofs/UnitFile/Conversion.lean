import ProcUnits.Proofs.Procfile.Conversion
import ProcUnits.Proofs.UnitFile.Alike
import ProcUnits.Proofs.UnitFile.Instances

/-!
The units of converted applications (section C.3 of the specification).

A converted file needs nothing of its host but the names of the application, its user and its
group: all else that the defaults of the host said is in the file.

* `bareDefaults`: a host that says nothing else;
* `optionsAlike_converted`, `instanceAlike_converted`: under it a converted service agrees with the
  legacy one on what units show;
* `units_converted`: both applications have the same units under all init systems.
-/

namespace ProcUnits.UnitFile

open Procfile
open Validation (Passes numbers)

variable {a : Application} {d : Defaults} {s : Service}

/-- The defaults of a host that names the application, its user and its group, and has some
directory for it. -/
def bareDefaults (d : Defaults) (dir : String) : Defaults where
  name := d.name
  user := d.user
  group := d.group
  workingDir := dir

/-! ### Services -/

/-- The numbers of the defaults that a legacy service without problems shows are not negative. -/
lemma nonneg_of_legacy (hs : IsLegacy d s) (h : Passes ⟨a, s⟩) :
    0 ≤ d.killTimeout ∧ (d.respawnEnabled = true → 0 ≤ d.respawnDelay) := by
  have hnumbers : ∀ n ∈ numbers s.options, n.2.2 ≤ n.2.1 := fun n hn =>
    h.numbers n (List.mem_append_left _ hn)
  rw [hs.options_eq] at hnumbers
  have htimeout := hnumbers ("kill_timeout", d.killTimeout, 0) (by simp [numbers, legacyOptions])
  refine ⟨htimeout, fun hrespawn => ?_⟩
  exact hnumbers ("respawn.delay", d.respawnDelay, 0)
    (by simp [numbers, legacyOptions, hrespawn])

/-- Respawning is as it was if the host that turned it on gave its numbers. -/
lemma respawn_converted (hdelay : d.respawnEnabled = true → 0 ≤ d.respawnDelay)
    (hrespawn : d.respawnEnabled = true → 0 < d.respawnCount ∧ 0 < d.respawnInterval)
    (a : Application) (dir : String) :
    (convertedOptions a d).respawn.fillFromDefaults (bareDefaults d dir)
      = if d.respawnEnabled then ⟨some true, d.respawnCount, d.respawnInterval, d.respawnDelay⟩
        else { enabled := some false } := by
  cases henabled : d.respawnEnabled with
  | false => simp [Respawn.fillFromDefaults, convertedOptions, bareDefaults, henabled]
  | true =>
      obtain ⟨hcount, hinterval⟩ := hrespawn henabled
      have hcount' := firstNumber_of_ne (Int.ne_of_gt hcount) standardRespawnCount
      have hinterval' := firstNumber_of_ne (Int.ne_of_gt hinterval) standardRespawnInterval
      simp [Respawn.fillFromDefaults, convertedOptions, bareDefaults, henabled,
        firstNumber_zero_right, hcount', hinterval', Int.max_eq_left (hdelay henabled)]

/-- A converted service agrees with the legacy one on the options that units show. -/
lemma optionsAlike_converted (hs : IsLegacy d s) (h : Passes ⟨a, s⟩)
    (hrespawn : d.respawnEnabled = true → 0 < d.respawnCount ∧ 0 < d.respawnInterval)
    (dir : String) :
    OptionsAlike (convertedService a d (bareDefaults d dir) s).options s.options := by
  obtain ⟨htimeout, hdelay⟩ := nonneg_of_legacy hs h
  rw [options_converted hs, respawn_converted hdelay hrespawn, hs.options_eq]
  simp only [legacyOptions, bareDefaults, firstNumber_zero_right, Int.max_eq_left htimeout]
  constructor <;> cases d.respawnEnabled <;> simp [Options.isRespawnEnabled]

/-- The instance of a converted service agrees with that of the legacy one. -/
lemma instanceAlike_converted (hs : IsLegacy d s) (happ : a = .ofDefaults .v1 d a.services)
    (h : Passes ⟨a, s⟩)
    (hrespawn : d.respawnEnabled = true → 0 < d.respawnCount ∧ 0 < d.respawnInterval)
    (hdir : d.workingDir ≠ "") (dir helperDir : String) :
    InstanceAlike
      ⟨⟨converted a d (bareDefaults d dir), convertedService a d (bareDefaults d dir) s⟩, none,
        helperDir⟩ ⟨⟨a, s⟩, none, helperDir⟩ := by
  have happdir : a.workingDir = d.workingDir := by rw [happ]; rfl
  constructor
  case app_name_eq => rw [happ]; rfl
  case app_user_eq => rw [happ]; rfl
  case app_group_eq => rw [happ]; rfl
  case workingDir_eq =>
    rw [memberDir_converted hs, Options.setText_some, if_neg (happdir ▸ hdir)]
    rfl
  case name_eq =>
    rw [Instance.name, name_convertedService]
    rfl
  case helperDir_eq => rfl
  case options_alike => exact optionsAlike_converted hs h hrespawn dir

/-! ### Applications -/

/-- If the host gives a directory, and both numbers where it respawns services, then the converted
file means the same without its other defaults: under each init system the application has the same
unit, and its instances have the same units under the same names. -/
theorem units_converted {text : List Char} (h : ofText .v1 text d = .ok a)
    (hvalid : Validation.validate a = []) (hload : LoadsBack a d)
    (hrespawn : d.respawnEnabled = true → 0 < d.respawnCount ∧ 0 < d.respawnInterval)
    (hdir : d.workingDir ≠ "") (dir : String) :
    ∃ yaml b, convert a d = .ok yaml
      ∧ ofBytes (Text.Utf8.encode yaml) (bareDefaults d dir) = .ok b ∧ b.name = a.name
      ∧ ∀ (system : InitSystem) (date helperDir : String),
        system.appUnit date b = system.appUnit date a
        ∧ (instances b helperDir).map (fun i => (i.stem, system.serviceUnit date i))
          = (instances a helperDir).map fun i => (i.stem, system.serviceUnit date i) := by
  obtain ⟨happ, hlegacy⟩ := isLegacy_of_ofText h
  have hpasses := (Validation.validate_eq_nil_iff.mp hvalid).2.1
  obtain ⟨yaml, hyaml, hread⟩ :=
    ofBytes_convert (version_of_ofText h) (Validation.names_nodup_of_validate hvalid) hload
      (bareDefaults d dir)
  have halike (s : Service) (hs : s ∈ a.services) (helperDir : String) :=
    instanceAlike_converted (hlegacy s hs) happ (hpasses _ (List.mem_map_of_mem hs)) hrespawn hdir
      dir helperDir
  -- no legacy service has several instances, so both have one for each service
  have hinstances (helperDir : String) :
      instances (converted a d (bareDefaults d dir)) helperDir
        = a.services.map fun s => ⟨⟨converted a d (bareDefaults d dir),
          convertedService a d (bareDefaults d dir) s⟩, none, helperDir⟩ := by
    rw [instances_of_single, services_converted, List.map_map]
    · rfl
    · rw [services_converted, List.forall_mem_map]
      exact fun s hs => instances_converted (hlegacy s hs) a _
  have hinstances' (helperDir : String) :=
    instances_of_single (fun s hs => instances_legacy (hlegacy s hs)) helperDir
  have hstems : stems (converted a d (bareDefaults d dir)) = stems a := by
    rw [stems_eq _ "", stems_eq _ "", hinstances, hinstances', List.map_map, List.map_map]
    exact List.map_congr_left fun s hs => (serviceUnit_eq (halike s hs "") .systemd "").1
  have happlication : ApplicationAlike (converted a d (bareDefaults d dir)) a := by
    constructor
    case stems_eq => exact hstems
    all_goals
      rw [happ]
      rfl
  refine ⟨yaml, _, hyaml, hread, happlication.name_eq, fun system date helperDir =>
    ⟨appUnit_eq happlication system date, ?_⟩⟩
  · rw [hinstances, hinstances', List.map_map, List.map_map]
    refine List.map_congr_left fun s hs => ?_
    obtain ⟨hstem, hunit⟩ := serviceUnit_eq (halike s hs helperDir) system date
    exact Prod.ext hstem hunit

/-- A host that respawns services and waits for them. -/
def busyDefaults : Defaults where
  name := "shop"
  user := "www"
  group := "www"
  workingDir := "/srv"
  respawnEnabled := true
  respawnInterval := 15
  respawnCount := 5
  killTimeout := 60

/-- The application of one line under `busyDefaults`. -/
def busyApplication : Application :=
  .ofDefaults .v1 busyDefaults
    [{ name := "web", command := "serve"
       options := legacyOptions busyDefaults none none .empty }]

/-- What `busyDefaults` says is not asked of the host again, not even the directory. -/
theorem units_converted_busy :
    ∃ yaml b, convert busyApplication busyDefaults = .ok yaml
      ∧ ofBytes (Text.Utf8.encode yaml) { name := "shop", user := "www", group := "www" } = .ok b
      ∧ b.name = "shop"
      ∧ ∀ (system : InitSystem) (date helperDir : String),
        system.appUnit date b = system.appUnit date busyApplication
        ∧ (instances b helperDir).map (fun i => (i.stem, system.serviceUnit date i))
          = (instances busyApplication helperDir).map
            fun i => (i.stem, system.serviceUnit date i) := by
  have htext : ofText .v1 "web: serve\n".toList busyDefaults = .ok busyApplication := by
    decide +kernel
  have hload : LoadsBack busyApplication busyDefaults := by decide +kernel
  exact units_converted htext (by decide +kernel) hload (by decide) (by decide) ""

end ProcUnits.UnitFile
