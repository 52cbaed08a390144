import ProcUnits.Proofs.Procfile.Conversion

/-!
Validity of converted applications (sections 4.5 and C.3 of the specification).

A converted file says more of its services than the legacy file did: the directory of the host
stands in each of them, and the assignments that a further scan of the command finds are variables.
Both are checked then, and all that was checked before still passes.

* `PassesAnew`: what the new checks ask;
* `passes_converted_iff`: a service that passed its checks passes them after conversion just if it
  is so;
* `validate_converted_iff`: the same of an application.
-/

namespace ProcUnits.Validation

open Procfile

variable {a : Application} {d : Defaults} {s : Service}

/-- What is asked of a service only once it is converted. -/
structure PassesAnew (a : Application) (s : Service) : Prop where
  /-- Without a directory of its own the service gets that of the application. -/
  workingDir : Options.setText s.options.workingDir = none →
    ∀ t ∈ Options.setText (some a.workingDir), isSafePath a.workingDir t = true
  /-- What stands behind `env` in the command is taken for assignments. -/
  environment : ∀ e ∈ (Clause.scan s.command.toList).environment.entries,
    s.options.environment.get? e.1 = none → isVariableName e.1 = true ∧ isSafeValue e.2 = true

/-! ### Numbers -/

/-- The numbers of a service pass after conversion as before. -/
lemma numbers_converted (hs : IsLegacy d s) (h : ∀ n ∈ numbers s.options, n.2.2 ≤ n.2.1) :
    ∀ n ∈ numbers (convertedService a d d s).options, n.2.2 ≤ n.2.1 := by
  rw [hs.options_eq] at h
  rw [options_converted hs]
  simp only [numbers, legacyOptions, List.forall_mem_cons, List.not_mem_nil, false_implies,
    implies_true, and_true, firstNumber_self, firstNumber_max, convertedOptions] at h ⊢
  cases hrespawn : d.respawnEnabled with
  | false => simpa [hrespawn, Respawn.fillFromDefaults] using h
  | true =>
      simp only [hrespawn, if_true] at h
      obtain ⟨htimeout, hcount, hrcount, hinterval, hdelay, hfiles, hprocesses, hmemory⟩ := h
      simp only [Respawn.fillFromDefaults, hrespawn, if_true, Option.getD_some]
      refine ⟨htimeout, hcount, ?_, ?_, ?_, hfiles, hprocesses, hmemory⟩
      · exact firstNumber_nonneg (firstNumber_nonneg hrcount (by decide)) hrcount
      · exact firstNumber_nonneg (firstNumber_nonneg hinterval (by decide)) hinterval
      · rwa [firstNumber_max]

/-! ### Services -/

lemma forall_mem_or_iff {α : Type} {o u : Option α} {P : α → Prop} (ho : ∀ t ∈ o, P t) :
    (∀ t ∈ o.or u, P t) ↔ (o = none → ∀ t ∈ u, P t) := by
  cases o with
  | none => simp
  | some t => simpa using ho t rfl

lemma forall_mem_union_iff {v w : Variables} {P : String × String → Prop}
    (hv : ∀ e ∈ v.entries, P e) :
    (∀ e ∈ (v.union w).entries, P e) ↔ ∀ e ∈ w.entries, v.get? e.1 = none → P e := by
  constructor
  · intro h e he hnew
    exact h e (Variables.mem_union_iff.mpr (Or.inr ⟨he, hnew⟩))
  · intro h e he
    rcases Variables.mem_union_iff.mp he with hmem | ⟨hmem, hnew⟩
    · exact hv e hmem
    · exact h e hmem hnew

/-- A service that passes its checks passes them after conversion just if it passes the new
ones. -/
theorem passes_converted_iff (hs : IsLegacy d s) (hdir : a.workingDir = d.workingDir)
    (h : Passes ⟨a, s⟩) :
    Passes ⟨converted a d d, convertedService a d d s⟩ ↔ PassesAnew a s := by
  have hoptions :
      (Application.Member.mk (converted a d d) (convertedService a d d s)).options = _ :=
    options_converted hs a d
  have happ : (converted a d d).workingDir = a.workingDir := workingDir_converted_self hdir
  have hmember := memberDir_converted_self hs hdir
  -- the old directory and variables pass already, so only the new ones are left
  have hworkingDir := forall_mem_or_iff (u := Options.setText (some a.workingDir)) h.workingDir
  have henvironment := forall_mem_union_iff (w := (Clause.scan s.command.toList).environment)
    h.environment
  have hown : Options.setText (firstText s.options.workingDir (Options.setText (some a.workingDir)))
      = (Options.setText s.options.workingDir).or (Options.setText (some a.workingDir)) := by
    rw [Options.setText_firstText, Options.setText_setText]
  constructor
  · intro hpasses
    have hdirs := hpasses.workingDir
    have hvariables := hpasses.environment
    rw [hoptions] at hdirs hvariables
    rw [hown, happ] at hdirs
    exact ⟨hworkingDir.mp hdirs, henvironment.mp hvariables⟩
  · intro hanew
    have hplain := h.numbers
    rw [List.forall_mem_append] at hplain
    constructor
    case isName =>
      rw [name_convertedService]
      exact h.isName
    case workingDir =>
      rw [hoptions, hown, happ]
      exact hworkingDir.mpr hanew.workingDir
    case logFile =>
      rw [hoptions, hmember]
      exact h.logFile
    case numbers =>
      rw [List.forall_mem_append]
      refine ⟨numbers_converted hs hplain.1, ?_⟩
      rw [hoptions]
      simp [resourceNumbers]
    case environment =>
      rw [hoptions]
      exact henvironment.mpr hanew.environment
    -- a legacy service says nothing of the rest
    all_goals
      rw [hoptions]
      simp [Options.setText]

/-! ### Applications -/

/-- The services of a converted application have the names that they had. -/
lemma names_converted (a : Application) (d d' : Defaults) :
    (converted a d d').members.map (·.service.name) = a.members.map (·.service.name) := by
  rw [members_converted, Application.members, List.map_map, List.map_map]
  exact List.map_congr_left fun s _ => name_convertedService a d d' s

/-- So do their instances. -/
lemma allInstanceNames_converted (hs : ∀ s ∈ a.services, IsLegacy d s) :
    allInstanceNames (converted a d d).members = allInstanceNames a.members := by
  rw [allInstanceNames, allInstanceNames, members_converted, Application.members,
    List.flatMap_map, List.flatMap_map]
  refine List.flatMap_congr fun s hmem => ?_
  simp only [Options.instanceNames]
  rw [name_convertedService, instances_converted (hs s hmem), instances_legacy (hs s hmem)]

/-- A legacy application without problems has none after conversion just if its services pass the
checks that are new then. -/
theorem validate_converted_iff {text : List Char} (h : ofText .v1 text d = .ok a)
    (hvalid : validate a = []) (hload : LoadsBack a d) :
    ∃ yaml b, convert a d = .ok yaml ∧ ofBytes (Text.Utf8.encode yaml) d = .ok b
      ∧ (validate b = [] ↔ ∀ s ∈ a.services, PassesAnew a s) := by
  obtain ⟨happ, hlegacy⟩ := isLegacy_of_ofText h
  obtain ⟨happlication, hpasses, hnames, hinstances⟩ := validate_eq_nil_iff.mp hvalid
  obtain ⟨yaml, hyaml, hread⟩ :=
    ofBytes_convert (version_of_ofText h) (names_nodup_of_validate hvalid) hload d
  refine ⟨yaml, converted a d d, hyaml, hread, ?_⟩
  have happlication' : applicationProblems (converted a d d) = [] := by
    rw [← happlication, happ]
    rfl
  have hinstances' : (allInstanceNames (converted a d d).members).Nodup := by
    rwa [allInstanceNames_converted hlegacy]
  have hnames' : ((converted a d d).members.map (·.service.name)).Nodup := by
    rwa [names_converted]
  rw [validate_eq_nil_iff]
  simp only [happlication', hnames', hinstances', and_true, true_and]
  rw [members_converted, List.forall_mem_map]
  exact forall₂_congr fun s hs =>
    passes_converted_iff (hlegacy s hs) (workingDir_of_ofText h)
      (hpasses _ (List.mem_map_of_mem hs))

/-- A host whose services lie in a directory of the system. -/
def libDefaults : Defaults := { plainDefaults with workingDir := "/var/lib/shop" }

/-- The application of one line under `libDefaults`. -/
def libApplication : Application :=
  .ofDefaults .v1 libDefaults
    [{ name := "web", command := "serve", options := legacyOptions libDefaults none none .empty }]

/-- The directory of a host is not looked at before conversion, and refused afterwards. -/
theorem validate_refuses_converted :
    validate libApplication = [] ∧ ∃ yaml b, convert libApplication libDefaults = .ok yaml
      ∧ ofBytes (Text.Utf8.encode yaml) libDefaults = .ok b ∧ validate b ≠ [] := by
  have htext : ofText .v1 "web: serve\n".toList libDefaults = .ok libApplication := by
    decide +kernel
  have hvalid : validate libApplication = [] := by decide +kernel
  have hload : LoadsBack libApplication libDefaults := by decide +kernel
  obtain ⟨yaml, b, hyaml, hread, hiff⟩ := validate_converted_iff htext hvalid hload
  refine ⟨hvalid, yaml, b, hyaml, hread, fun hnil => ?_⟩
  have hdir :=
    (hiff.mp hnil _ List.mem_cons_self).workingDir rfl "/var/lib/shop" (by decide +kernel)
  exact absurd hdir (by decide +kernel)

end ProcUnits.Validation
