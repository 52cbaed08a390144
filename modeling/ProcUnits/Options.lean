import ProcUnits.Resources
import ProcUnits.Variables

/-!
What a service asks of the init system beside its commands (section 3 of the specification).

A text that is missing or empty and a number that is zero stand for "not set". The predicates
`Options.is…Set` say so for each option, and all that is written for a service hangs on them.

* `Respawn`, `Limits`, `Options`: the options;
* `Options.instances`: the instances of a service, and `instanceName` what each is called;
  `instances_length` says that there is always at least one.
-/

namespace ProcUnits

/-- Whether and how often a service is started again after a failure. -/
structure Respawn where
  /-- No answer until a file, the shared options or the defaults give one. -/
  enabled : Option Bool := none
  count : Int := 0
  interval : Int := 0
  /-- Seconds between the end of a process and the next start. -/
  delay : Int := 0
  deriving DecidableEq, Repr, Inhabited

/-- The limit on locked memory that stands for no limit (section 4.6). -/
def unlimitedMemory : Int := -1

/-- The basic limits on the processes of a service. -/
structure Limits where
  files : Int := 0
  processes : Int := 0
  /-- May be `unlimitedMemory`. -/
  lockedMemory : Int := 0
  deriving DecidableEq, Repr, Inhabited

/-- The options of a service (`ServiceOptions` in section 3). -/
structure Options where
  environment : Variables := .empty
  variablesFile : Option String := none
  workingDir : Option String := none
  logFile : Option String := none
  killTimeout : Int := 0
  killSignal : Option String := none
  killMode : Option String := none
  reloadSignal : Option String := none
  /-- The number of instances that run side by side. Zero is one instance without a number. -/
  count : Int := 0
  respawn : Respawn := {}
  limits : Limits := {}
  resources : Option Resources := none
  deriving DecidableEq, Repr, Inhabited

namespace Options

/-- The text of an option, if it is set: it is there and not empty. -/
def setText (o : Option String) : Option String := o.filter (· ≠ "")

/-- The option is set. -/
def isTextSet (o : Option String) : Bool := (setText o).isSome

/-! ### Which options are set -/

def isRespawnEnabled (o : Options) : Bool := o.respawn.enabled.getD false

/-- Both numbers of the respawn limit are known. -/
def isRespawnLimitSet (o : Options) : Bool := 0 < o.respawn.count && 0 < o.respawn.interval

def isRespawnDelaySet (o : Options) : Bool := 0 < o.respawn.delay

def isKillTimeoutSet (o : Options) : Bool := 0 < o.killTimeout

def isKillSignalSet (o : Options) : Bool := isTextSet o.killSignal

def isKillModeSet (o : Options) : Bool := isTextSet o.killMode

def isReloadSignalSet (o : Options) : Bool := isTextSet o.reloadSignal

def isFileLimitSet (o : Options) : Bool := o.limits.files != 0

def isProcessLimitSet (o : Options) : Bool := o.limits.processes != 0

def isMemoryLimitSet (o : Options) : Bool := o.limits.lockedMemory != 0

def isCustomLogEnabled (o : Options) : Bool := isTextSet o.logFile

def areVariablesSet (o : Options) : Bool := !o.environment.isEmpty

def isVariablesFileSet (o : Options) : Bool := isTextSet o.variablesFile

def isMultiInstance (o : Options) : Bool := 0 < o.count

/-! ### Instances -/

/-- The instances of a service: one without a number, or those from 1 to the count (section 4.6). -/
def instances (o : Options) : List (Option Nat) :=
  if o.isMultiInstance then (List.range o.count.toNat).map fun i => some (i + 1) else [none]

/-- What an instance of the service `name` is called (section D). -/
def instanceName (name : String) : Option Nat → String
  | none => name
  | some i => name ++ toString i

/-- What the instances of the service `name` are called. -/
def instanceNames (o : Options) (name : String) : List String :=
  o.instances.map (instanceName name)

/-- A service has as many instances as its count says, and one if the count is not positive. -/
theorem instances_length (o : Options) :
    o.instances.length = if 0 < o.count then o.count.toNat else 1 := by
  unfold instances isMultiInstance
  by_cases h : 0 < o.count <;> simp [h]

/-- Only the count decides about the instances. -/
theorem instances_congr {o p : Options} (h : o.count = p.count) : o.instances = p.instances := by
  simp [instances, isMultiInstance, h]

end Options

end ProcUnits
