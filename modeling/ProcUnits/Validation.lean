import ProcUnits.Application
import ProcUnits.Text.Blank
import ProcUnits.Text.Numeral

/-!
Checks of a resolved application (section 4.5 of the specification). All problems are reported, each
check on its own.

* `Problem`: what can be wrong, and `Problem.message` the words for it;
* the parts of a service that are checked: `isName`, `isDevice`, `isSafePath`, `isKnownSignal`,
  `isVariableName`, `isSafeValue`;
* `serviceProblems`: the problems of one service; they depend on that service and on the
  directory of the application alone (`serviceProblems_congr`);
* `validate`: the problems of an application, in the order in which they are found.
-/

namespace ProcUnits.Validation

/-- Something that is wrong with an application. -/
inductive Problem where
  | runLevel (which : String) (value : Int)
  /-- The name of the application. -/
  | value (name : String)
  | serviceName (name : String)
  | duplicateService (name : String)
  | duplicateInstance (name : String)
  | device (name : String)
  | dependency (name : String)
  | unsafePath (service field path : String)
  | negative (service field : String) (value : Int)
  | killMode (service value : String)
  | signal (service field value : String)
  | variableName (service name : String)
  | variableValue (service name : String)
  deriving DecidableEq, Repr

/-- The text of a problem. -/
def Problem.message : Problem → String
  | .runLevel w i => s!"{w} run level {i} is out of range (1-6)"
  | .value n => s!"value \"{n}\" is insecure and can't be accepted"
  | .serviceName n => s!"service name \"{n}\" is not valid"
  | .duplicateService n => s!"service \"{n}\" is defined more than once"
  | .duplicateInstance n => s!"service instance \"{n}\" is generated by more than one service"
  | .device n => s!"network device name \"{n}\" is not valid"
  | .dependency n => s!"dependency name \"{n}\" is not valid"
  | .unsafePath s f p => s!"service \"{s}\": {f} path \"{p}\" is unsafe and can't be accepted"
  | .negative s f v => s!"service \"{s}\": {f} can't be negative ({v})"
  | .killMode s v => s!"service \"{s}\": unknown kill mode \"{v}\""
  | .signal s f v => s!"service \"{s}\": unknown {f} \"{v}\""
  | .variableName s n => s!"service \"{s}\": environment variable name \"{n}\" is not valid"
  | .variableValue s n =>
    s!"service \"{s}\": environment variable {n} has unquoted whitespace or '*' in its value"

/-! ### Names -/

/-- The characters of names: ASCII letters and digits, `_` and `-`. -/
def isNameChar (c : Char) : Bool := c.isAlphanum || c == '_' || c == '-'

/-- A name of an application, a service or a dependency. -/
def isName (s : String) : Bool := !s.isEmpty && s.toList.all isNameChar

/-- The number of a device behind its name: nothing, or `.` or `:` and digits. -/
def isDeviceNumber : List Char → Bool
  | [] => true
  | c :: r => (c == '.' || c == ':') && !r.isEmpty && r.all Char.isDigit

/-- The greatest length of a device's name in bytes. -/
def maxDeviceLength : Nat := 15

/-- A name of a network device. -/
def isDevice (s : String) : Bool :=
  s.utf8ByteSize ≤ maxDeviceLength &&
    match s.toList with
    | [] => false
    | c :: r => c.isAlpha && isDeviceNumber (r.dropWhile isNameChar)

/-- A name of a variable: ASCII letters, digits and `_`, with no digit in front. -/
def isVariableName (s : String) : Bool :=
  match s.toList with
  | [] => false
  | c :: r => (c.isAlpha || c == '_') && r.all fun c => c.isAlphanum || c == '_'

/-! ### Paths -/

/-- The characters of paths. -/
def isPathChar (c : Char) : Bool := isNameChar c || c == '.' || c == '/'

/-- The directories of the system, in which nothing of a service may lie (section D). -/
def protectedDirs : List String :=
  ["/lost+found", "/bin", "/boot", "/etc", "/dev", "/lib", "/lib64", "/proc", "/root", "/sbin",
    "/selinux", "/sys", "/usr/bin", "/usr/lib", "/usr/lib64", "/usr/libexec", "/usr/sbin",
    "/usr/include", "/var/cache", "/var/db", "/var/lib"]

/-- The place is neither the root nor in a directory of the system. Where a relative place
leads is not known, and it passes. -/
def isSafePlace (place : Path.Place) : Bool :=
  !place.rooted ||
    (!place.names.isEmpty && !protectedDirs.any fun dir => place.isWithin (Path.normalize dir))

/-- The path is written with safe characters, does not climb over its start, and leads from the
directory `base` to a safe place (section D). -/
def isSafePath (base path : String) : Bool :=
  !path.isEmpty && path.toList.all isPathChar && !Path.escapes path
    && isSafePlace (Path.normalize (Path.resolve base path))

/-! ### Signals -/

/-- The names of signals. -/
def signals : List String :=
  ["HUP", "INT", "QUIT", "ILL", "TRAP", "ABRT", "IOT", "BUS", "FPE", "KILL", "USR1", "SEGV",
    "USR2", "PIPE", "ALRM", "TERM", "STKFLT", "CHLD", "CONT", "STOP", "TSTP", "TTIN", "TTOU",
    "URG", "XCPU", "XFSZ", "VTALRM", "PROF", "WINCH", "IO", "POLL", "PWR", "SYS"]

/-- The greatest number of a signal. -/
def maxSignal : Nat := 64

/-- The text in upper case, as far as it is ASCII. -/
def upper (s : String) : String := String.ofList (s.toList.map Char.toUpper)

/-- A signal, by its number or by its name with or without `SIG` in any case (section C.6). -/
def isKnownSignal (s : String) : Bool :=
  match Text.Numeral.word32? 10 s.toList with
  | some n => 1 ≤ n && n ≤ maxSignal
  | none =>
    match (upper s).toList with
    | 'S' :: 'I' :: 'G' :: r => signals.contains (String.ofList r)
    | r => signals.contains (String.ofList r)

/-- The ways to kill a service. -/
def killModes : List String := ["control-group", "process", "mixed", "none"]

/-! ### Values of variables -/

/-- A blank or a `*` that no backslash escapes is among the characters. -/
def hasRisk : List Char → Bool
  | [] => false
  | '\\' :: [] => false
  | '\\' :: _ :: r => hasRisk r
  | c :: r => c == '*' || Text.isBlank c || hasRisk r

/-- The character stands there an even number of times, and not never. -/
def isBalanced (q : Char) (s : List Char) : Bool := s.count q != 0 && s.count q % 2 == 0

/-- The value can stand in a shell command: nothing in it splits or expands it, or there are quotes
in pairs around something (section 4.5). -/
def isSafeValue (s : String) : Bool :=
  !hasRisk s.toList || isBalanced '"' s.toList || isBalanced '\'' s.toList

/-! ### Services -/

/-- The problem, if the condition does not hold. -/
def require (ok : Bool) (p : Problem) : List Problem := if ok then [] else [p]

/-- The problem of a text option, if it is set and the condition does not hold. -/
def requireText (o : Option String) (ok : String → Bool) (p : String → Problem) : List Problem :=
  match Options.setText o with
  | some s => require (ok s) (p s)
  | none => []

/-- The problem of a path option that is taken from the directory `base`. -/
def pathProblems (service field base : String) (o : Option String) : List Problem :=
  requireText o (isSafePath base) (.unsafePath service field)

/-- The numbers of a service by name, with the least value of each (section 4.5). -/
def numbers (o : Options) : List (String × Int × Int) :=
  [("kill_timeout", o.killTimeout, 0), ("count", o.count, 0),
    ("respawn.count", o.respawn.count, 0), ("respawn.interval", o.respawn.interval, 0),
    ("respawn.delay", o.respawn.delay, 0), ("limits.nofile", o.limits.files, 0),
    ("limits.nproc", o.limits.processes, 0),
    ("limits.memlock", o.limits.lockedMemory, unlimitedMemory)]

/-- The numbers among the resource controls of a service. -/
def resourceNumbers (o : Options) : List (String × Int × Int) :=
  match o.resources with
  | none => []
  | some r => r.numbers.filterMap fun e => e.2.map fun i => (e.1, i, 0)

/-- The numbers that are less than they may be. -/
def negativeProblems (service : String) (ns : List (String × Int × Int)) : List Problem :=
  ns.flatMap fun n => require (n.2.2 ≤ n.2.1) (.negative service n.1 n.2.1)

/-- The problems of one variable. -/
def variableProblems (service : String) (e : String × String) : List Problem :=
  require (isVariableName e.1) (.variableName service e.1)
    ++ require (isSafeValue e.2) (.variableValue service e.1)

/-- The problems of one service (section 4.5). -/
def serviceProblems (m : Application.Member) : List Problem :=
  let name := m.service.name
  let o := m.options
  require (isName name) (.serviceName name)
    ++ pathProblems name "working directory" m.app.workingDir o.workingDir
    ++ pathProblems name "log" m.workingDir o.logFile
    ++ pathProblems name "env file" m.workingDir o.variablesFile
    ++ negativeProblems name (numbers o ++ resourceNumbers o)
    ++ requireText o.killMode killModes.contains (.killMode name)
    ++ requireText o.killSignal isKnownSignal (.signal name "kill signal")
    ++ requireText o.reloadSignal isKnownSignal (.signal name "reload signal")
    ++ o.environment.entries.flatMap (variableProblems name)

/-- The application counts for a service's problems by its directory only. -/
theorem serviceProblems_congr {a b : Application} (h : a.workingDir = b.workingDir)
    (s : Service) : serviceProblems ⟨a, s⟩ = serviceProblems ⟨b, s⟩ := by
  simp [serviceProblems, Application.Member.workingDir, h]

/-! ### Applications -/

/-- The names of `names` that occur before, in it or in `seen`, and all names seen then. -/
def repeated (seen : List String) : List String → List String × List String
  | [] => ([], seen)
  | n :: ns =>
    if n ∈ seen then (n :: (repeated seen ns).1, (repeated seen ns).2)
    else repeated (n :: seen) ns

/-- The problems of services after those whose names and instances are seen already. Of a
service that is defined again the instances are not looked at. -/
def memberProblems (seen instances : List String) : List Application.Member → List Problem
  | [] => []
  | m :: ms =>
    let name := m.service.name
    if name ∈ seen then
      .duplicateService name :: serviceProblems m ++ memberProblems seen instances ms
    else
      let (again, instances) := repeated instances (m.options.instanceNames name)
      again.map .duplicateInstance ++ serviceProblems m
        ++ memberProblems (name :: seen) instances ms

/-- The level is one of the six run levels (section 3). -/
def isRunLevel (i : Int) : Bool := 1 ≤ i && i ≤ 6

/-- The problems of the application itself. -/
def applicationProblems (a : Application) : List Problem :=
  require (isRunLevel a.startLevel) (.runLevel "start" a.startLevel)
    ++ require (isRunLevel a.stopLevel) (.runLevel "stop" a.stopLevel)
    ++ require (isName a.name) (.value a.name)
    ++ (match a.startDevice with
      | some d => require (isDevice d) (.device d)
      | none => [])
    ++ a.depends.flatMap fun d => require (isName d) (.dependency d)

/-- All problems of an application (section 4.5). One without any can be rendered. -/
def validate (a : Application) : List Problem :=
  applicationProblems a ++ memberProblems [] [] a.members

end ProcUnits.Validation
