import ProcUnits.Proofs.Precedence
import ProcUnits.Proofs.UnitFile.Conversion
import ProcUnits.Proofs.Validation.Locality
import ProcUnits.Settings.Problem

/-!
The defaults of a host (section 4.4 of the specification) make no file invalid.

* `Defaults.Admissible`, `admissible_defaultsFor_iff`: what the settings ask of the numbers that
  they give to services;
* `serviceProblems_fillFromDefaults`: a service filled from such numbers has the problems that it
  had before. A number that it takes from them passes its check, as zero does, and one that does
  not pass is its own;
* `validate_resolve`, `validate_defaultsFor`: what is wrong with the application of a file is the
  same under settings without problems as under a host that gives it no numbers;
* `sameOutcome_defaultsFor_iff`: no check of these numbers in the settings is one too many.
-/

namespace ProcUnits

open Procfile Validation

variable {d d' : Defaults} {o shared : Options} {service field : String} {own default least : Int}

/-! ### Numbers -/

/-- The numbers are not less than they may be. -/
structure Defaults.Admissible (d : Defaults) : Prop where
  respawnCount : 0 ≤ d.respawnCount
  respawnInterval : 0 ≤ d.respawnInterval
  respawnDelay : 0 ≤ d.respawnDelay
  killTimeout : 0 ≤ d.killTimeout
  fileLimit : 0 ≤ d.fileLimit
  processLimit : 0 ≤ d.processLimit
  memoryLimit : unlimitedMemory ≤ d.memoryLimit

/-- A host that gives no numbers asks for nothing. -/
lemma admissible_bareDefaults (d : Defaults) (dir : String) :
    (UnitFile.bareDefaults d dir).Admissible :=
  have hzero : (0 : Int) ≤ 0 := by decide
  have hunlimited : unlimitedMemory ≤ 0 := by decide
  ⟨hzero, hzero, hzero, hzero, hzero, hzero, hunlimited⟩

/-- The numbers in the settings are as they have to be just if their section has no problems. -/
theorem admissible_defaultsFor_iff (s : Settings) (app : String) :
    (s.defaultsFor app).Admissible ↔ s.defaults.problems = [] := by
  have hsection : s.defaults.problems = [] ↔
      (∀ n ∈ s.defaults.numbers, 0 ≤ n.2) ∧ unlimitedMemory ≤ s.defaults.lockedMemory := by
    simp [Settings.ServiceDefaults.problems, Settings.problemIf]
  rw [hsection]
  simp only [Settings.ServiceDefaults.numbers, List.forall_mem_cons, List.not_mem_nil,
    false_implies, implies_true, and_true]
  constructor
  · rintro ⟨hcount, hinterval, hdelay, htimeout, hfiles, hprocesses, hmemory⟩
    exact ⟨⟨hprocesses, hfiles, hcount, hinterval, hdelay, htimeout⟩, hmemory⟩
  · rintro ⟨⟨hprocesses, hfiles, hcount, hinterval, hdelay, htimeout⟩, hmemory⟩
    exact ⟨hcount, hinterval, hdelay, htimeout, hfiles, hprocesses, hmemory⟩

lemma Settings.admissible_of_problems {s : Settings} {around : Settings.Surroundings}
    (h : s.problems around = []) (app : String) : (s.defaultsFor app).Admissible := by
  simp only [Settings.problems, List.append_eq_nil_iff] at h
  exact (admissible_defaultsFor_iff s app).mpr h.1.2

/-! ### Services -/

/-- A check finds the same in a number that may come from the defaults. -/
lemma require_firstNumber (hleast : least ≤ 0) (hdefault : least ≤ default) :
    require (least ≤ firstNumber own default)
        (.negative service field (firstNumber own default))
      = require (least ≤ own) (.negative service field own) := by
  by_cases h : own = 0
  · -- neither the number nor the zero in its place is a problem
    rw [h, firstNumber_zero_left, require_eq_nil_iff.mpr (decide_eq_true hdefault),
      require_eq_nil_iff.mpr (decide_eq_true hleast)]
  · rw [firstNumber_of_ne h]

/-- Also where it does not count, what the host says of respawning is not less than it may be. -/
lemma zero_le_respawnDefault (o : Options) {i : Int} (hi : 0 ≤ i) :
    0 ≤ firstNonzero (o.respawnDefault i) := by
  unfold Options.respawnDefault
  split_ifs
  · rwa [firstNonzero_cons, firstNonzero_nil, firstNumber_zero_right]
  · exact Int.le_refl 0

/-- Numbers from the defaults bring no problems, and hide none. -/
lemma negativeProblems_fillFromDefaults (hd : d.Admissible) (service : String) (o : Options) :
    negativeProblems service (numbers (o.fillFromDefaults d))
      = negativeProblems service (numbers o) := by
  have hzero : (0 : Int) ≤ 0 := by decide
  have hunlimited : unlimitedMemory ≤ 0 := by decide
  rw [numbers, respawn_fillFromDefaults]
  simp only [negativeProblems, numbers, Options.fillFromDefaults, List.flatMap_cons,
    List.flatMap_nil]
  rw [require_firstNumber hzero hd.killTimeout, require_firstNumber hzero hd.fileLimit,
    require_firstNumber hzero hd.processLimit, require_firstNumber hunlimited hd.memoryLimit,
    require_firstNumber hzero (zero_le_respawnDefault _ hd.respawnCount),
    require_firstNumber hzero (zero_le_respawnDefault _ hd.respawnInterval),
    require_firstNumber hzero (zero_le_respawnDefault _ hd.respawnDelay)]

/-- A service that is filled from the defaults has the problems that it had before. -/
theorem serviceProblems_fillFromDefaults (hd : d.Admissible) (a : Application) (s : Service) :
    serviceProblems ⟨a, { s with options := s.options.fillFromDefaults d }⟩
      = serviceProblems ⟨a, s⟩ := by
  have hnumbers : negativeProblems s.name (numbers (s.options.fillFromDefaults d)
        ++ resourceNumbers (s.options.fillFromDefaults d))
      = negativeProblems s.name (numbers s.options ++ resourceNumbers s.options) := by
    have hown := negativeProblems_fillFromDefaults hd s.name s.options
    rw [negativeProblems] at hown ⊢
    rw [List.flatMap_append, hown, negativeProblems, negativeProblems, List.flatMap_append]
    rfl
  simp only [serviceProblems, hnumbers]
  rfl

/-! ### Applications -/

/-- Whichever admissible numbers the services of an application are filled from, it has the same
problems. -/
theorem validate_resolve (hd : d.Admissible) (hd' : d'.Admissible) (a : Application)
    (shared : Options) : validate (a.resolve shared d) = validate (a.resolve shared d') := by
  have hproblems {e : Defaults} (he : e.Admissible) (s : Service) :
      serviceProblems ⟨a.resolve shared e, s.resolve shared e⟩
        = serviceProblems ⟨a, { s with options := s.options.mergeShared shared }⟩ :=
    (serviceProblems_congr rfl _).trans (serviceProblems_fillFromDefaults he a
      { s with options := s.options.mergeShared shared })
  refine validate_congr rfl ?_
  simp only [Application.members, Application.resolve, List.map_map]
  rw [List.forall₂_map_left_iff, List.forall₂_map_right_iff]
  refine List.forall₂_same.mpr fun s _ => ⟨⟨rfl, rfl⟩, ?_⟩
  exact (hproblems hd s).trans (hproblems hd' s).symm

/-- A file declares the same services whatever numbers the host gives. -/
lemma draftOfText_bareDefaults (version : Version) (text : List Char) (d : Defaults) :
    draftOfText version text (UnitFile.bareDefaults d d.workingDir)
      = draftOfText version text d := by
  cases version <;> rfl

/-- A file that is read under admissible defaults is read under none, and the other way round. The
application has the same problems. -/
theorem ofBytes_bareDefaults (hd : d.Admissible) (bytes : List UInt8) :
    SameOutcome (fun a b => validate a = validate b) (ofBytes bytes d)
      (ofBytes bytes (UnitFile.bareDefaults d d.workingDir)) := by
  refine SameOutcome.bind_same _ fun text => ?_
  rw [ofText, ofText, draftOfText_bareDefaults]
  refine SameOutcome.bind_same _ fun draft => .ok ?_
  exact validate_resolve hd (admissible_bareDefaults d _) draft.app draft.shared

/-- Settings without problems never make a file invalid by the numbers that they give to its
services: it is read, and the application has its problems, as if they gave none and did not turn
respawning on. -/
theorem validate_defaultsFor {s : Settings} {around : Settings.Surroundings}
    (h : s.problems around = []) (app : String) (bytes : List UInt8) :
    SameOutcome (fun a b => validate a = validate b) (ofBytes bytes (s.defaultsFor app))
      (ofBytes bytes
        (UnitFile.bareDefaults (s.defaultsFor app) (s.defaultsFor app).workingDir)) :=
  ofBytes_bareDefaults (Settings.admissible_of_problems h app) bytes

/-- Settings that respawn all services and do not limit their memory. -/
def respawning : Settings where
  main := { user := "www", group := "www" }
  defaults := { lockedMemory := unlimitedMemory, respawn := true, respawnCount := 5 }

/-- A document with a number that is too small. -/
def hastyText : String :=
  "version: 2\ncommands:\n  web:\n    command: serve\n    kill_timeout: -5\n"

/-- Under these settings the number in the document is the only problem. -/
theorem validate_defaultsFor_hasty :
    respawning.problems ⟨fun _ => true, fun _ => true, fun _ => true⟩ = []
      ∧ ∃ a, ofBytes (Text.Utf8.encode hastyText) (respawning.defaultsFor "shop") = .ok a
        ∧ validate a = [.negative "web" "kill_timeout" (-5)] := by
  have hproblems : respawning.problems ⟨fun _ => true, fun _ => true, fun _ => true⟩ = [] := by
    decide +kernel
  have hsame := validate_defaultsFor hproblems "shop" (Text.Utf8.encode hastyText)
  have hbare : (ofBytes (Text.Utf8.encode hastyText) (UnitFile.bareDefaults
      (respawning.defaultsFor "shop") (respawning.defaultsFor "shop").workingDir)).map validate
        = .ok [.negative "web" "kill_timeout" (-5)] := by decide +kernel
  refine ⟨hproblems, ?_⟩
  generalize ofBytes _ (respawning.defaultsFor "shop") = x,
    ofBytes _ (UnitFile.bareDefaults _ _) = y at hsame hbare ⊢
  cases hsame with
  | ok heq => exact ⟨_, rfl, heq.trans (Except.ok.inj hbare)⟩
  | error e f => cases hbare

/-! ### The checks of the settings are all needed -/

/-- A document that leaves all numbers of its service to the host. -/
def silentText : String := "version: 2\ncommands:\n  web:\n    command: serve\n"

/-- The service that it declares, with the options that the host gives. -/
def silentService (d : Defaults) : Service where
  name := "web"
  command := "serve"
  options :=
    { killTimeout := d.killTimeout
      respawn := ⟨some true, d.respawnCount, d.respawnInterval, d.respawnDelay⟩
      limits := ⟨d.fileLimit, d.processLimit, d.memoryLimit⟩ }

lemma ofBytes_silentText (d : Defaults) :
    ofBytes (Text.Utf8.encode silentText) d
      = .ok (.ofDefaults .v2 d [silentService d]) := by
  have hversion : Version.detect silentText.toList = .v2 := by decide +kernel
  have hload : Yaml.Value.load silentText.toList = .ok (.map [(.str "version", .int 2),
      (.str "commands", .map [(.str "web", .map [(.str "command", .str "serve")])])]) := by
    decide +kernel
  have hservice : ({ name := "web", command := "serve" } : Service).resolve
      { respawn := { enabled := some true } } d = silentService d := by
    have hmerged : ({} : Options).mergeShared { respawn := { enabled := some true } }
        = { respawn := { enabled := some true } } := rfl
    simp [Service.resolve, hmerged, Options.fillFromDefaults, Respawn.fillFromDefaults,
      firstNumber_zero_left, silentService]
  rw [ofBytes, decode_encode, ok_bind, hversion, ofText, draftOfText, hload, ← hservice]
  rfl

/-- A service all whose numbers are the defaults reports those that are too small. -/
lemma admissible_of_serviceProblems {a b : Application}
    (h : serviceProblems ⟨a, silentService d⟩
      = serviceProblems ⟨b, silentService (UnitFile.bareDefaults d d.workingDir)⟩) :
    d.Admissible := by
  have hbare : ∀ n ∈ numbers (silentService (UnitFile.bareDefaults d d.workingDir)).options,
      n.2.2 ≤ n.2.1 := by
    simp [numbers, silentService, UnitFile.bareDefaults, unlimitedMemory]
  have hnumbers : ∀ n ∈ numbers (silentService d).options, n.2.2 ≤ n.2.1 := by
    rintro ⟨field, value, least⟩ hn
    by_contra hless
    have hviolates : Violates ⟨a, silentService d⟩ (.negative "web" field value) :=
      .number (mem_numbers_iff.mp hn) (Int.not_le.mp hless)
    rw [← mem_serviceProblems_iff, h, mem_serviceProblems_iff] at hviolates
    cases hviolates with
    | number hfield hless =>
        exact absurd (hbare _ (mem_numbers_iff.mpr hfield)) (Int.not_le.mpr hless)
    | resource hset _ _ => cases hset
  simp only [numbers, silentService, List.forall_mem_cons] at hnumbers
  obtain ⟨htimeout, -, hcount, hinterval, hdelay, hfiles, hprocesses, hmemory, -⟩ := hnumbers
  exact ⟨hcount, hinterval, hdelay, htimeout, hfiles, hprocesses, hmemory⟩

/-- The application of that document has a problem of its own or one of the service. -/
lemma validate_silent (d : Defaults) :
    validate (.ofDefaults .v2 d [silentService d])
      = applicationProblems (.ofDefaults .v2 d [])
        ++ serviceProblems ⟨.ofDefaults .v2 d [silentService d], silentService d⟩ := by
  refine congrArg (applicationProblems (.ofDefaults .v2 d []) ++ ·) ?_
  exact (Seen.problems_cons {} _ []).trans (List.append_nil _)

/-- A host whose defaults do not show in the problems of any file gives admissible numbers. -/
lemma admissible_of_sameOutcome (h : ∀ bytes, SameOutcome (fun a b => validate a = validate b)
    (ofBytes bytes d) (ofBytes bytes (UnitFile.bareDefaults d d.workingDir))) :
    d.Admissible := by
  have hsame := h (Text.Utf8.encode silentText)
  rw [ofBytes_silentText, ofBytes_silentText] at hsame
  cases hsame with
  | ok hsame =>
      rw [validate_silent, validate_silent] at hsame
      exact admissible_of_serviceProblems (List.append_cancel_left hsame)

/-- The section of the defaults asks for no more than that. -/
theorem sameOutcome_defaultsFor_iff (s : Settings) (app : String) :
    (∀ bytes, SameOutcome (fun a b => validate a = validate b) (ofBytes bytes (s.defaultsFor app))
      (ofBytes bytes (UnitFile.bareDefaults (s.defaultsFor app) (s.defaultsFor app).workingDir)))
      ↔ s.defaults.problems = [] := by
  rw [← admissible_defaultsFor_iff s app]
  exact ⟨admissible_of_sameOutcome, ofBytes_bareDefaults⟩

end ProcUnits
