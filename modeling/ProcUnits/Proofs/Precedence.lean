import Mathlib.Data.List.Forall2
import ProcUnits.Proofs.Resolution
import ProcUnits.Proofs.Variables

/-!
What counts where a service, its file and the host say different things: the order of sources in
section 4.4 of the specification, and the precedence that section 8 asks for.

* `firstNonzero`: the first number of several sources that is set;
* `Options.IsResolved`: each option comes from the first source that sets it;
* `isResolved_resolve`: so it is with all options of a service that is resolved;
* `resolve_resolve`: a second time, there is nothing left to decide;
* `resolve_precedence`: both for a whole application, of which nothing else changes.
-/

namespace ProcUnits

variable {own shared : Options} {d : Defaults} {i j k : Int}

/-! ### Numbers -/

/-- The first number that is not zero, or zero if there is none. -/
def firstNonzero (is : List Int) : Int := (is.find? (· ≠ 0)).getD 0

lemma firstNonzero_nil : firstNonzero [] = 0 := rfl

lemma firstNonzero_cons (i : Int) (is : List Int) :
    firstNonzero (i :: is) = firstNumber i (firstNonzero is) := by
  rw [firstNumber]
  split_ifs with hi <;> simp [firstNonzero, hi]

lemma firstNumber_assoc (i j k : Int) :
    firstNumber (firstNumber i j) k = firstNumber i (firstNumber j k) := by
  by_cases hi : i = 0
  · rw [hi, firstNumber_zero_left, firstNumber_zero_left]
  · rw [firstNumber_of_ne hi, firstNumber_of_ne hi, firstNumber_of_ne hi]

/-- A source that was asked already has nothing new to say. -/
lemma firstNumber_again (i j k : Int) :
    firstNumber (firstNumber (firstNumber i j) k) j = firstNumber (firstNumber i j) k := by
  by_cases hj : j = 0
  · rw [hj, firstNumber_zero_right]
  · have hset : firstNumber (firstNumber i j) k ≠ 0 := by
      by_cases hi : i = 0
      · rwa [hi, firstNumber_zero_left, firstNumber_of_ne hj]
      · rwa [firstNumber_of_ne hi, firstNumber_of_ne hi]
    exact firstNumber_of_ne hset j

/-! ### Texts and resource controls -/

lemma firstText_firstText (o u : Option String) :
    firstText (firstText o u) u = firstText o u := by
  by_cases h : Options.isTextSet o = true
  · rw [firstText, firstText, if_pos h, if_pos h]
  · rw [firstText, firstText, if_neg h, ite_self]

/-- A control of both is that of the first one that has it. -/
lemma bind_mergeResources {α : Type} {control : Resources → Option α} (o u : Option Resources)
    (h : ∀ r s : Resources, control (r.fillFrom s) = (control r).or (control s)) :
    (mergeResources o u).bind control = (o.bind control).or (u.bind control) := by
  cases o <;> cases u <;> simp [mergeResources, h]

lemma isSome_mergeResources (o u : Option Resources) :
    (mergeResources o u).isSome = (o.isSome || u.isSome) := by
  cases o <;> cases u <;> rfl

lemma mergeResources_mergeResources (o u : Option Resources) :
    mergeResources (mergeResources o u) u = mergeResources o u := by
  cases o <;> cases u <;>
    simp [mergeResources, Resources.fillFrom_self, Resources.fillFrom_fillFrom]

lemma union_union (vs ws : Variables) : (vs.union ws).union ws = vs.union ws := by
  refine Variables.ext_get? fun name => ?_
  rw [Variables.get?_union, Variables.get?_union, Option.or_assoc, Option.or_self]

/-! ### Options -/

namespace Options

/-- The options that are texts. -/
def texts : List (Options → Option String) :=
  [variablesFile, workingDir, logFile, killSignal, killMode, reloadSignal]

/-- The resource controls that are numbers. -/
def numberControls : List (Resources → Option Int) :=
  [Resources.cpuWeight, Resources.startupCpuWeight, Resources.cpuQuota, Resources.tasksMax,
    Resources.ioWeight, Resources.startupIoWeight]

/-- The resource controls that are texts. -/
def textControls : List (Resources → Option String) :=
  [Resources.cpuAffinity, Resources.memoryLow, Resources.memoryHigh, Resources.memoryMax,
    Resources.memorySwapMax, Resources.ioDeviceWeight, Resources.ioReadBandwidthMax,
    Resources.ioWriteBandwidthMax, Resources.ioReadIopsMax, Resources.ioWriteIopsMax,
    Resources.ipAddressAllow, Resources.ipAddressDeny]

/-- What the host says of a number for respawning counts only where services are respawned. -/
def respawnDefault (o : Options) (i : Int) : List Int := if o.isRespawnEnabled then [i] else []

/-- Each option comes from the first source that sets it: the service itself, the options of its
file for all services, and the host. -/
structure IsResolved (own shared : Options) (d : Defaults) (o : Options) : Prop where
  killTimeout : o.killTimeout = firstNonzero [own.killTimeout, shared.killTimeout, d.killTimeout]
  /-- The host says nothing of the number of instances. -/
  count : o.count = firstNonzero [own.count, shared.count]
  fileLimit : o.limits.files
    = firstNonzero [own.limits.files, shared.limits.files, d.fileLimit]
  processLimit : o.limits.processes
    = firstNonzero [own.limits.processes, shared.limits.processes, d.processLimit]
  memoryLimit : o.limits.lockedMemory
    = firstNonzero [own.limits.lockedMemory, shared.limits.lockedMemory, d.memoryLimit]
  /-- The host can turn respawning on for every service. -/
  respawnEnabled : o.respawn.enabled = if d.respawnEnabled then some true
    else own.respawn.enabled.or shared.respawn.enabled
  respawnCount : o.respawn.count = firstNonzero
    ([own.respawn.count, shared.respawn.count] ++ o.respawnDefault d.respawnCount)
  respawnInterval : o.respawn.interval = firstNonzero
    ([own.respawn.interval, shared.respawn.interval] ++ o.respawnDefault d.respawnInterval)
  respawnDelay : o.respawn.delay = firstNonzero
    ([own.respawn.delay, shared.respawn.delay] ++ o.respawnDefault d.respawnDelay)
  /-- Where no source sets a text it is missing or empty. -/
  text : ∀ t ∈ texts, setText (t o) = (setText (t own)).or (setText (t shared))
  numberControl : ∀ c ∈ numberControls,
    o.resources.bind c = (own.resources.bind c).or (shared.resources.bind c)
  textControl : ∀ c ∈ textControls,
    o.resources.bind c = (own.resources.bind c).or (shared.resources.bind c)
  hasResources : o.resources.isSome = (own.resources.isSome || shared.resources.isSome)
  /-- The value that a variable has for the service itself wins. -/
  environment : ∀ name, o.environment.get? name
    = (own.environment.get? name).or (shared.environment.get? name)

end Options

/-! ### Resolving -/

/-- What the host says of respawning counts behind what was said before. -/
lemma respawn_fillFromDefaults (o : Options) (d : Defaults) :
    (o.fillFromDefaults d).respawn =
      { enabled := if d.respawnEnabled then some true else o.respawn.enabled
        count := firstNumber o.respawn.count
          (firstNonzero ((o.fillFromDefaults d).respawnDefault d.respawnCount))
        interval := firstNumber o.respawn.interval
          (firstNonzero ((o.fillFromDefaults d).respawnDefault d.respawnInterval))
        delay := firstNumber o.respawn.delay
          (firstNonzero ((o.fillFromDefaults d).respawnDefault d.respawnDelay)) } := by
  simp only [Options.respawnDefault, Options.isRespawnEnabled, Options.fillFromDefaults,
    Respawn.fillFromDefaults]
  by_cases h : (if d.respawnEnabled = true then some true else o.respawn.enabled).getD false = true
  · simp only [if_pos h, firstNonzero_cons, firstNonzero_nil, firstNumber_zero_right]
  · simp only [if_neg h, firstNonzero_nil, firstNumber_zero_right]

/-- The options of a service that is resolved come from the first source that sets them. -/
theorem isResolved_resolve (s : Service) (shared : Options) (d : Defaults) :
    s.options.IsResolved shared d (s.resolve shared d).options := by
  have hrespawn := respawn_fillFromDefaults (s.options.mergeShared shared) d
  -- both steps choose between two numbers, together they choose among three
  have hnumber (i j k : Int) : firstNumber (firstNumber i j) k = firstNonzero [i, j, k] := by
    rw [firstNumber_assoc, firstNonzero_cons, firstNonzero_cons, firstNonzero_cons,
      firstNonzero_nil, firstNumber_zero_right]
  -- the numbers of the host count for a service that is respawned only
  have hrespawned (i j : Int) (is : List Int) :
      firstNumber (firstNumber i j) (firstNonzero is) = firstNonzero ([i, j] ++ is) := by
    rw [firstNumber_assoc, List.cons_append, List.cons_append, firstNonzero_cons,
      firstNonzero_cons, List.nil_append]
  have hcontrol {α : Type} {control : Resources → Option α}
      (h : ∀ r t : Resources, control (r.fillFrom t) = (control r).or (control t)) :
      (s.resolve shared d).options.resources.bind control
        = (s.options.resources.bind control).or (shared.resources.bind control) :=
    bind_mergeResources s.options.resources shared.resources h
  exact {
    killTimeout := hnumber ..
    count := by
      rw [firstNonzero_cons, firstNonzero_cons, firstNonzero_nil, firstNumber_zero_right]
      rfl
    fileLimit := hnumber ..
    processLimit := hnumber ..
    memoryLimit := hnumber ..
    respawnEnabled := congrArg Respawn.enabled hrespawn
    respawnCount := (congrArg Respawn.count hrespawn).trans (hrespawned ..)
    respawnInterval := (congrArg Respawn.interval hrespawn).trans (hrespawned ..)
    respawnDelay := (congrArg Respawn.delay hrespawn).trans (hrespawned ..)
    text := by
      simp only [Options.texts, List.forall_mem_cons, List.not_mem_nil, false_implies,
        implies_true, and_true]
      exact ⟨Options.setText_firstText .., Options.setText_firstText ..,
        Options.setText_firstText .., Options.setText_firstText ..,
        Options.setText_firstText .., Options.setText_firstText ..⟩
    numberControl := by
      simp only [Options.numberControls, List.forall_mem_cons, List.not_mem_nil, false_implies,
        implies_true, and_true]
      exact ⟨hcontrol fun _ _ => rfl, hcontrol fun _ _ => rfl, hcontrol fun _ _ => rfl,
        hcontrol fun _ _ => rfl, hcontrol fun _ _ => rfl, hcontrol fun _ _ => rfl⟩
    textControl := by
      simp only [Options.textControls, List.forall_mem_cons, List.not_mem_nil, false_implies,
        implies_true, and_true]
      exact ⟨hcontrol fun _ _ => rfl, hcontrol fun _ _ => rfl, hcontrol fun _ _ => rfl,
        hcontrol fun _ _ => rfl, hcontrol fun _ _ => rfl, hcontrol fun _ _ => rfl,
        hcontrol fun _ _ => rfl, hcontrol fun _ _ => rfl, hcontrol fun _ _ => rfl,
        hcontrol fun _ _ => rfl, hcontrol fun _ _ => rfl, hcontrol fun _ _ => rfl⟩
    hasResources := isSome_mergeResources ..
    environment := Variables.get?_union _ _ }

/-- Where respawning is decided it stays so. -/
lemma respawn_again (own shared : Options) (d : Defaults) :
    ((((own.mergeShared shared).fillFromDefaults d).mergeShared shared).fillFromDefaults d).respawn
      = ((own.mergeShared shared).fillFromDefaults d).respawn := by
  simp only [Options.fillFromDefaults, Options.mergeShared, Respawn.fillFromDefaults]
  by_cases hd : d.respawnEnabled = true
  · simp only [hd, if_true, Option.getD_some, firstNumber_again, firstNumber_firstNumber]
  · simp only [if_neg hd]
    by_cases hr : (own.respawn.enabled.or shared.respawn.enabled).getD false = true
    · simp only [if_pos hr, Option.or_assoc, Option.or_self, firstNumber_again,
        firstNumber_firstNumber]
    · simp only [if_neg hr, Option.or_assoc, Option.or_self, firstNumber_firstNumber]

/-- A service that is resolved stays as it is when it is resolved again. -/
theorem resolve_resolve (s : Service) (shared : Options) (d : Defaults) :
    (s.resolve shared d).resolve shared d = s.resolve shared d := by
  have hrespawn := respawn_again s.options shared d
  simp only [Service.resolve, Options.fillFromDefaults, Options.mergeShared] at hrespawn ⊢
  simp only [hrespawn, union_union, firstText_firstText, firstNumber_again,
    firstNumber_firstNumber, mergeResources_mergeResources]

/-- All options of an application that is resolved come from the first source that sets them, and
nothing else of it changes (section 4.4, and the precedence of section 8). Resolving it again
changes nothing at all. -/
theorem resolve_precedence (a : Application) (shared : Options) (d : Defaults) :
    List.Forall₂ (fun s t : Service =>
        t = { s with options := t.options } ∧ s.options.IsResolved shared d t.options)
      a.services (a.resolve shared d).services
    ∧ a.resolve shared d = { a with services := (a.resolve shared d).services }
    ∧ (a.resolve shared d).resolve shared d = a.resolve shared d := by
  refine ⟨?_, rfl, ?_⟩
  · rw [Application.resolve, List.forall₂_map_right_iff]
    exact List.forall₂_same.mpr fun s _ => ⟨rfl, isResolved_resolve s shared d⟩
  · simp only [Application.resolve, List.map_map, Function.comp_def, resolve_resolve]

end ProcUnits
