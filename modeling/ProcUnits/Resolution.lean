import ProcUnits.Application

/-!
Where a service's options come from (section 4.4 of the specification). What the service says of
itself counts first, then what its file says for all services, then the defaults of the host;
nothing that is set is ever replaced, but for respawning, which the defaults can turn on for every
service.

* `Options.mergeShared`, `Options.fillFromDefaults`: the two steps;
* `Application.resolve`: both steps for every service.
-/

namespace ProcUnits

/-- The first of two texts that is set. Where neither is, the second one stands. -/
def firstText (own other : Option String) : Option String :=
  if Options.isTextSet own then own else other

/-- The first of two numbers that is not zero. -/
def firstNumber (own other : Int) : Int := if own = 0 then other else own

/-- The resource controls of both, the first ones before the second ones. -/
def mergeResources : Option Resources → Option Resources → Option Resources
  | some own, some other => some (own.fillFrom other)
  | none, other => other
  | own, none => own

/-- The options, what is not set among them taken from those shared by all services (step 1 of
section 4.4). -/
def Options.mergeShared (own shared : Options) : Options where
  environment := own.environment.union shared.environment
  variablesFile := firstText own.variablesFile shared.variablesFile
  workingDir := firstText own.workingDir shared.workingDir
  logFile := firstText own.logFile shared.logFile
  killTimeout := firstNumber own.killTimeout shared.killTimeout
  killSignal := firstText own.killSignal shared.killSignal
  killMode := firstText own.killMode shared.killMode
  reloadSignal := firstText own.reloadSignal shared.reloadSignal
  count := firstNumber own.count shared.count
  respawn :=
    { enabled := own.respawn.enabled.or shared.respawn.enabled
      count := firstNumber own.respawn.count shared.respawn.count
      interval := firstNumber own.respawn.interval shared.respawn.interval
      delay := firstNumber own.respawn.delay shared.respawn.delay }
  limits :=
    { files := firstNumber own.limits.files shared.limits.files
      processes := firstNumber own.limits.processes shared.limits.processes
      lockedMemory := firstNumber own.limits.lockedMemory shared.limits.lockedMemory }
  resources := mergeResources own.resources shared.resources

/-- Respawning under the defaults: they may turn it on, and where it is on they give the
numbers that are not set. -/
def Respawn.fillFromDefaults (r : Respawn) (d : Defaults) : Respawn :=
  let enabled := if d.respawnEnabled then some true else r.enabled
  if enabled.getD false then
    { enabled
      count := firstNumber r.count d.respawnCount
      interval := firstNumber r.interval d.respawnInterval
      delay := firstNumber r.delay d.respawnDelay }
  else { r with enabled }

/-- The options, the limits, the kill timeout and respawning filled from the defaults (step 2 of
section 4.4). -/
def Options.fillFromDefaults (o : Options) (d : Defaults) : Options :=
  { o with
    limits :=
      { files := firstNumber o.limits.files d.fileLimit
        processes := firstNumber o.limits.processes d.processLimit
        lockedMemory := firstNumber o.limits.lockedMemory d.memoryLimit }
    killTimeout := firstNumber o.killTimeout d.killTimeout
    respawn := o.respawn.fillFromDefaults d }

/-- The service with all its options decided. -/
def Service.resolve (s : Service) (shared : Options) (d : Defaults) : Service :=
  { s with options := (s.options.mergeShared shared).fillFromDefaults d }

/-- The application with all options of its services decided. -/
def Application.resolve (a : Application) (shared : Options) (d : Defaults) : Application :=
  { a with services := a.services.map (·.resolve shared d) }

/-- A number that is not zero stays. -/
theorem firstNumber_of_ne {own : Int} (h : own ≠ 0) (other : Int) :
    firstNumber own other = own := if_neg h

/-- Taking the first number twice is taking it once. -/
theorem firstNumber_firstNumber (own other : Int) :
    firstNumber (firstNumber own other) other = firstNumber own other := by
  by_cases h : own = 0
  · by_cases h' : other = 0 <;> simp [firstNumber, h, h']
  · rw [firstNumber_of_ne h]
    exact firstNumber_of_ne h other

end ProcUnits
