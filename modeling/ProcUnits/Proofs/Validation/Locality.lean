import Mathlib.Data.List.Flatten
import Mathlib.Data.List.Nodup
import ProcUnits.Proofs.Validation.Names
import ProcUnits.Proofs.Variables

/-!
Which service causes which problems: the completeness of the checks that section 8 of the
specification asks for.

* `Violates`, `mem_serviceProblems_iff`, `serviceProblems_nodup`: a service has one problem for each
  check that it does not pass, whatever its other problems are. `NumberField` and `ControlField`
  are the numbers that are checked;
* `Seen`, `Seen.problems_append`: what the walk over the services takes from one service to the next
  ones are names. All else that it finds out about a service is reported on the spot;
* `Interchangeable`, `validate_congr`: services with the same names, counts and problems have the
  same problems together;
* `validate_set`: another service of the same name and count in the place of one changes nothing but
  that one's own problems.
-/

namespace ProcUnits.Validation

variable {m : Application.Member} {o : Option String} {ok : Bool} {p q : Problem}

/-! ### The problems of a service -/

/-- The service has a number of this name and value, and the least that it may be. -/
inductive NumberField (os : Options) : String → Int → Int → Prop
  | killTimeout : NumberField os "kill_timeout" os.killTimeout 0
  | count : NumberField os "count" os.count 0
  | respawnCount : NumberField os "respawn.count" os.respawn.count 0
  | respawnInterval : NumberField os "respawn.interval" os.respawn.interval 0
  | respawnDelay : NumberField os "respawn.delay" os.respawn.delay 0
  | files : NumberField os "limits.nofile" os.limits.files 0
  | processes : NumberField os "limits.nproc" os.limits.processes 0
  | lockedMemory : NumberField os "limits.memlock" os.limits.lockedMemory unlimitedMemory

/-- A resource control that is a number is set to this value. -/
inductive ControlField (r : Resources) : String → Int → Prop
  | cpuWeight {i : Int} (hset : r.cpuWeight = some i) : ControlField r "cpu_weight" i
  | startupCpuWeight {i : Int} (hset : r.startupCpuWeight = some i) :
      ControlField r "startup_cpu_weight" i
  | cpuQuota {i : Int} (hset : r.cpuQuota = some i) : ControlField r "cpu_quota" i
  | tasksMax {i : Int} (hset : r.tasksMax = some i) : ControlField r "task_max" i
  | ioWeight {i : Int} (hset : r.ioWeight = some i) : ControlField r "io_weight" i
  | startupIoWeight {i : Int} (hset : r.startupIoWeight = some i) :
      ControlField r "startup_io_weight" i

/-- The service does not pass a check, and the problem is the one that this check reports. -/
inductive Violates (m : Application.Member) : Problem → Prop
  | name (h : isName m.service.name = false) : Violates m (.serviceName m.service.name)
  | workingDir {t : String} (hset : Options.setText m.options.workingDir = some t)
      (h : isSafePath m.app.workingDir t = false) :
      Violates m (.unsafePath m.service.name "working directory" t)
  | logFile {t : String} (hset : Options.setText m.options.logFile = some t)
      (h : isSafePath m.workingDir t = false) : Violates m (.unsafePath m.service.name "log" t)
  | variablesFile {t : String} (hset : Options.setText m.options.variablesFile = some t)
      (h : isSafePath m.workingDir t = false) :
      Violates m (.unsafePath m.service.name "env file" t)
  | number {field : String} {value least : Int} (hfield : NumberField m.options field value least)
      (h : value < least) : Violates m (.negative m.service.name field value)
  | resource {r : Resources} {field : String} {value : Int} (hset : m.options.resources = some r)
      (hfield : ControlField r field value) (h : value < 0) :
      Violates m (.negative m.service.name field value)
  | killMode {t : String} (hset : Options.setText m.options.killMode = some t)
      (h : t ∉ killModes) : Violates m (.killMode m.service.name t)
  | killSignal {t : String} (hset : Options.setText m.options.killSignal = some t)
      (h : isKnownSignal t = false) : Violates m (.signal m.service.name "kill signal" t)
  | reloadSignal {t : String} (hset : Options.setText m.options.reloadSignal = some t)
      (h : isKnownSignal t = false) : Violates m (.signal m.service.name "reload signal" t)
  | variableName {n v : String} (hvar : m.options.environment.get? n = some v)
      (h : isVariableName n = false) : Violates m (.variableName m.service.name n)
  | variableValue {n v : String} (hvar : m.options.environment.get? n = some v)
      (h : isSafeValue v = false) : Violates m (.variableValue m.service.name n)

lemma mem_require_iff : q ∈ require ok p ↔ ok = false ∧ q = p := by
  cases ok <;> simp [require]

lemma mem_requireText_iff {check : String → Bool} {p : String → Problem} :
    q ∈ requireText o check p ↔ ∃ t, Options.setText o = some t ∧ check t = false ∧ q = p t := by
  unfold requireText
  cases Options.setText o with
  | none => simp
  | some t => simp [mem_require_iff]

lemma mem_negativeProblems_iff {service : String} {ns : List (String × Int × Int)} :
    q ∈ negativeProblems service ns
      ↔ ∃ field value least, (field, value, least) ∈ ns ∧ value < least
          ∧ q = .negative service field value := by
  simp [negativeProblems, mem_require_iff]

/-- The eight numbers among the options are checked, and no others. -/
lemma mem_numbers_iff {os : Options} {field : String} {value least : Int} :
    (field, value, least) ∈ numbers os ↔ NumberField os field value least := by
  simp only [numbers, List.mem_cons, List.not_mem_nil, or_false, Prod.mk.injEq]
  constructor
  · rintro (⟨rfl, rfl, rfl⟩ | ⟨rfl, rfl, rfl⟩ | ⟨rfl, rfl, rfl⟩ | ⟨rfl, rfl, rfl⟩ |
      ⟨rfl, rfl, rfl⟩ | ⟨rfl, rfl, rfl⟩ | ⟨rfl, rfl, rfl⟩ | ⟨rfl, rfl, rfl⟩) <;> constructor
  · rintro (_ | _) <;> simp

/-- The six controls that are numbers are checked, and no others. -/
lemma mem_controls_iff {r : Resources} {field : String} {value : Int} :
    (field, some value) ∈ r.numbers ↔ ControlField r field value := by
  simp only [Resources.numbers, List.mem_cons, List.not_mem_nil, or_false, Prod.mk.injEq]
  constructor
  · rintro (⟨rfl, h⟩ | ⟨rfl, h⟩ | ⟨rfl, h⟩ | ⟨rfl, h⟩ | ⟨rfl, h⟩ | ⟨rfl, h⟩) <;>
      constructor <;> exact h.symm
  · rintro (h | h | h | h | h | h) <;> simp [h]

lemma mem_resourceNumbers_iff {os : Options} {field : String} {value least : Int} :
    (field, value, least) ∈ resourceNumbers os
      ↔ least = 0 ∧ ∃ r, os.resources = some r ∧ ControlField r field value := by
  simp only [← mem_controls_iff]
  unfold resourceNumbers
  cases os.resources with
  | none => simp
  | some r =>
      simp only [List.mem_filterMap, Option.map_eq_some_iff, Prod.mk.injEq, Option.some.injEq,
        exists_eq_left']
      constructor
      · rintro ⟨⟨f, v⟩, hmem, i, rfl, rfl, rfl, rfl⟩
        exact ⟨rfl, hmem⟩
      · rintro ⟨rfl, hmem⟩
        exact ⟨_, hmem, _, rfl, rfl, rfl, rfl⟩

lemma mem_variableProblems_iff {service : String} {e : String × String} :
    q ∈ variableProblems service e
      ↔ (isVariableName e.1 = false ∧ q = .variableName service e.1)
        ∨ isSafeValue e.2 = false ∧ q = .variableValue service e.1 := by
  rw [variableProblems, List.mem_append, mem_require_iff, mem_require_iff]

/-- The problems of a service are those of the checks that it does not pass. -/
theorem mem_serviceProblems_iff : p ∈ serviceProblems m ↔ Violates m p := by
  simp only [serviceProblems, pathProblems, List.mem_append, List.mem_flatMap, mem_require_iff,
    mem_requireText_iff, mem_negativeProblems_iff, mem_variableProblems_iff]
  constructor
  · rintro ((((((((⟨h, rfl⟩ | ⟨t, ht, h, rfl⟩) | ⟨t, ht, h, rfl⟩) | ⟨t, ht, h, rfl⟩) |
      ⟨field, value, least, hfield | hfield, h, rfl⟩) | ⟨t, ht, h, rfl⟩) | ⟨t, ht, h, rfl⟩) |
      ⟨t, ht, h, rfl⟩) | ⟨⟨n, v⟩, hvar, ⟨h, rfl⟩ | ⟨h, rfl⟩⟩)
    · exact .name h
    · exact .workingDir ht h
    · exact .logFile ht h
    · exact .variablesFile ht h
    · exact .number (mem_numbers_iff.mp hfield) h
    · obtain ⟨rfl, r, hr, hfield⟩ := mem_resourceNumbers_iff.mp hfield
      exact .resource hr hfield h
    · exact .killMode ht (by simpa using h)
    · exact .killSignal ht h
    · exact .reloadSignal ht h
    · exact .variableName (Variables.mem_entries_iff.mp hvar) h
    · exact .variableValue (Variables.mem_entries_iff.mp hvar) h
  · intro h
    cases h with
    | name h => grind
    | workingDir ht h => grind
    | logFile ht h => grind
    | variablesFile ht h => grind
    | number hfield h =>
        have hnumber := mem_numbers_iff.mpr hfield
        grind
    | resource hr hfield h =>
        have hnumber := mem_resourceNumbers_iff.mpr ⟨rfl, _, hr, hfield⟩
        grind
    | killMode ht h => grind
    | killSignal ht h => grind
    | reloadSignal ht h => grind
    | variableName hvar h =>
        have hentry := Variables.mem_entries_iff.mpr hvar
        grind
    | variableValue hvar h =>
        have hentry := Variables.mem_entries_iff.mpr hvar
        grind

/-! ### Each check on its own -/

/-- What is checked where a problem is found: a field of the service, or one of its variables. -/
def Problem.subject : Problem → String × String
  | .serviceName _ => ("name", "")
  | .unsafePath _ field _ => (field, "")
  | .negative _ field _ => (field, "")
  | .killMode _ _ => ("kill mode", "")
  | .signal _ field _ => (field, "")
  | .variableName _ name => ("variable name", name)
  | .variableValue _ name => ("variable value", name)
  | _ => ("application", "")

/-- The numbers among the options and the resource controls, as they are checked. -/
def numberSubjects : List (String × String) :=
  (numbers {}).map (fun n => (n.1, "")) ++ ({} : Resources).numbers.map fun e => (e.1, "")

/-- What is checked of a service beside its variables, in the order of the checks. -/
def fieldSubjects : List (String × String) :=
  [("name", "")] ++ [("working directory", "")] ++ [("log", "")] ++ [("env file", "")]
    ++ numberSubjects ++ [("kill mode", "")] ++ [("kill signal", "")] ++ [("reload signal", "")]

/-- The name and the value of each variable. -/
def variableSubjects (vs : Variables) : List (String × String) :=
  vs.entries.flatMap fun e => [("variable name", e.1), ("variable value", e.1)]

lemma map_require_sublist (ok : Bool) (p : Problem) :
    ((require ok p).map Problem.subject).Sublist [p.subject] := by
  cases ok <;> simp [require]

lemma map_requireText_sublist {check : String → Bool} {p : String → Problem} {field : String}
    (hp : ∀ t, (p t).subject = (field, "")) :
    ((requireText o check p).map Problem.subject).Sublist [(field, "")] := by
  unfold requireText
  cases Options.setText o with
  | none => exact List.nil_sublist _
  | some t => exact hp t ▸ map_require_sublist (check t) (p t)

lemma map_negativeProblems_sublist (service : String) (ns : List (String × Int × Int)) :
    ((negativeProblems service ns).map Problem.subject).Sublist (ns.map fun n => (n.1, "")) := by
  induction ns with
  | nil => exact .slnil
  | cons n ns ih =>
      rw [negativeProblems, List.flatMap_cons, List.map_append]
      exact (map_require_sublist _ _).append ih

lemma map_resourceNumbers_sublist (os : Options) :
    ((resourceNumbers os).map fun n => (n.1, "")).Sublist
      (({} : Resources).numbers.map fun e => (e.1, "")) := by
  have hset : ∀ es : List (String × Option Int),
      ((es.filterMap fun e => e.2.map fun i => (e.1, i, (0 : Int))).map fun n => (n.1, "")).Sublist
        (es.map fun e => (e.1, "")) := by
    intro es
    induction es with
    | nil => exact .slnil
    | cons e es ih =>
        obtain ⟨field, value⟩ := e
        cases value with
        | none => exact ih.cons _
        | some i => exact ih.cons_cons _
  unfold resourceNumbers
  cases os.resources with
  | none => exact List.nil_sublist _
  | some r => exact hset r.numbers

lemma map_variableProblems_sublist (service : String) (e : String × String) :
    ((variableProblems service e).map Problem.subject).Sublist
      [("variable name", e.1), ("variable value", e.1)] := by
  rw [variableProblems, List.map_append]
  exact (map_require_sublist _ _).append (map_require_sublist _ _)

/-- The problems of a service stand in the order of the checks. -/
lemma map_serviceProblems_sublist (m : Application.Member) :
    ((serviceProblems m).map Problem.subject).Sublist
      (fieldSubjects ++ variableSubjects m.options.environment) := by
  have hnumbers : ((negativeProblems m.service.name
      (numbers m.options ++ resourceNumbers m.options)).map Problem.subject).Sublist
        numberSubjects := by
    refine (map_negativeProblems_sublist _ _).trans ?_
    rw [List.map_append]
    exact (List.Sublist.refl _).append (map_resourceNumbers_sublist m.options)
  have hvariables : ((m.options.environment.entries.flatMap
      (variableProblems m.service.name)).map Problem.subject).Sublist
        (variableSubjects m.options.environment) := by
    rw [List.map_flatMap]
    exact List.Sublist.flatMap_right _ fun e _ => map_variableProblems_sublist _ e
  simp only [serviceProblems, pathProblems, List.map_append]
  refine .append (.append (.append (.append (.append (.append (.append (.append ?_ ?_) ?_) ?_)
    hnumbers) ?_) ?_) ?_) hvariables
  · exact map_require_sublist _ _
  · exact map_requireText_sublist fun _ => rfl
  · exact map_requireText_sublist fun _ => rfl
  · exact map_requireText_sublist fun _ => rfl
  · exact map_requireText_sublist fun _ => rfl
  · exact map_requireText_sublist fun _ => rfl
  · exact map_requireText_sublist fun _ => rfl

lemma variableSubjects_nodup (vs : Variables) : (variableSubjects vs).Nodup := by
  refine List.nodup_flatMap.mpr ⟨fun e _ => by simp, vs.ordered.imp fun {e e'} hlt => ?_⟩
  have hne : e'.1 ≠ e.1 := fun heq => String.lt_irrefl e.1 (heq ▸ hlt)
  simp [Function.onFun, hne]

lemma subjects_nodup (vs : Variables) : (fieldSubjects ++ variableSubjects vs).Nodup := by
  have hfields : ∀ x ∈ fieldSubjects, x.1 ≠ "variable name" ∧ x.1 ≠ "variable value" := by decide
  refine List.nodup_append'.mpr ⟨by decide, variableSubjects_nodup vs, ?_⟩
  refine List.disjoint_left.mpr fun x hx hx' => ?_
  obtain ⟨e, -, hx'⟩ := List.mem_flatMap.mp hx'
  obtain ⟨hname, hvalue⟩ := hfields x hx
  grind

/-- No check reports two problems, and no two checks report the same one. -/
theorem serviceProblems_nodup (m : Application.Member) : (serviceProblems m).Nodup :=
  ((subjects_nodup _).sublist (map_serviceProblems_sublist m)).of_map

/-! ### The walk over the services -/

variable {n : Application.Member} {ms ns : List Application.Member}

/-- The names of services and of instances that were seen. -/
structure Seen where
  services : List String := []
  instances : List String := []

/-- What is reported of a service for its name and the names of its instances. -/
def Seen.repeats (seen : Seen) (m : Application.Member) : List Problem :=
  if m.service.name ∈ seen.services then [.duplicateService m.service.name]
  else (repeated seen.instances (m.options.instanceNames m.service.name)).1.map .duplicateInstance

/-- What was seen after a service. -/
def Seen.see (seen : Seen) (m : Application.Member) : Seen :=
  if m.service.name ∈ seen.services then seen
  else ⟨m.service.name :: seen.services,
    (repeated seen.instances (m.options.instanceNames m.service.name)).2⟩

/-- The problems of services after those that were seen. -/
def Seen.problems (seen : Seen) (ms : List Application.Member) : List Problem :=
  memberProblems seen.services seen.instances ms

lemma Seen.problems_cons (seen : Seen) (m : Application.Member) (ms : List Application.Member) :
    seen.problems (m :: ms) = seen.repeats m ++ serviceProblems m ++ (seen.see m).problems ms := by
  rw [problems, memberProblems, repeats, see]
  split_ifs <;> rfl

/-- The services behind others have the problems that they have after those others were seen. -/
theorem Seen.problems_append (seen : Seen) (front back : List Application.Member) :
    seen.problems (front ++ back)
      = seen.problems front ++ (front.foldl see seen).problems back := by
  induction front generalizing seen with
  | nil => rfl
  | cons m ms ih =>
      rw [List.cons_append, problems_cons, ih, problems_cons, List.foldl_cons]
      simp only [List.append_assoc]

/-- Two services that the walk takes for one another: they have the same instances. -/
structure SameNames (m n : Application.Member) : Prop where
  name : m.service.name = n.service.name
  count : m.options.count = n.options.count

lemma SameNames.instanceNames_eq (h : SameNames m n) :
    m.options.instanceNames m.service.name = n.options.instanceNames n.service.name := by
  rw [Options.instanceNames, Options.instanceNames, h.name, Options.instances_congr h.count]

lemma SameNames.repeats_eq (h : SameNames m n) (seen : Seen) :
    seen.repeats m = seen.repeats n := by
  rw [Seen.repeats, Seen.repeats, h.instanceNames_eq, h.name]

lemma SameNames.see_eq (h : SameNames m n) (seen : Seen) :
    seen.see m = seen.see n := by
  rw [Seen.see, Seen.see, h.instanceNames_eq, h.name]

/-- Two services that have the same problems wherever they stand. -/
structure Interchangeable (m n : Application.Member) : Prop extends SameNames m n where
  problems : serviceProblems m = serviceProblems n

/-- Services that have the same problems one by one have the same ones together. -/
theorem Seen.problems_congr (seen : Seen) (h : List.Forall₂ Interchangeable ms ns) :
    seen.problems ms = seen.problems ns := by
  induction h generalizing seen with
  | nil => rfl
  | cons h _ ih =>
      rw [problems_cons, problems_cons, h.repeats_eq, h.see_eq, h.problems, ih]

/-! ### Applications -/

variable {a b : Application}

/-- Applications have the same problems if they have the same ones of their own and their services
are interchangeable. -/
theorem validate_congr (happ : applicationProblems a = applicationProblems b)
    (h : List.Forall₂ Interchangeable a.members b.members) : validate a = validate b := by
  rw [validate, validate, happ]
  exact congrArg _ (Seen.problems_congr {} h)

/-- The application counts for the problems of its services by its directory only. -/
lemma interchangeable_members (h : a.workingDir = b.workingDir) (ss : List Service) :
    List.Forall₂ Interchangeable (ss.map (.mk a)) (ss.map (.mk b)) := by
  rw [List.forall₂_map_left_iff, List.forall₂_map_right_iff]
  exact List.forall₂_same.mpr fun s _ => ⟨⟨rfl, rfl⟩, serviceProblems_congr h s⟩

lemma validate_services (a : Application) (ss : List Service) :
    validate { a with services := ss }
      = applicationProblems a ++ ({} : Seen).problems (ss.map (.mk a)) :=
  congrArg (applicationProblems a ++ ·)
    (Seen.problems_congr {}
      (interchangeable_members (a := { a with services := ss }) (b := a) rfl ss))

/-- Another service of the same name and count in the place of one has its own problems there, one
for each check that it does not pass (section 4.5). All problems in front of them and behind them
stay. -/
theorem validate_set {i : ℕ} (hi : i < a.services.length) :
    ∃ duplicates behind, ∀ s : Service, s.name = a.services[i].name →
      s.options.count = a.services[i].options.count →
        validate { a with services := a.services.set i s }
            = validate { a with services := a.services.take i } ++ duplicates
              ++ serviceProblems ⟨a, s⟩ ++ behind
          ∧ (serviceProblems ⟨a, s⟩).Nodup
          ∧ ∀ p, p ∈ serviceProblems ⟨a, s⟩ ↔ Violates ⟨a, s⟩ p := by
  let seen : Seen := ((a.services.take i).map (.mk a)).foldl Seen.see {}
  let own : Application.Member := ⟨a, a.services[i]⟩
  refine ⟨seen.repeats own, (seen.see own).problems ((a.services.drop (i + 1)).map (.mk a)),
    fun s hname hcount => ⟨?_, serviceProblems_nodup _, fun p => mem_serviceProblems_iff⟩⟩
  have hsame : SameNames ⟨a, s⟩ own := ⟨hname, hcount⟩
  rw [validate_services, validate_services, List.set_eq_take_append_cons_drop, if_pos hi,
    List.map_append, List.map_cons, Seen.problems_append, Seen.problems_cons, hsame.repeats_eq,
    hsame.see_eq]
  simp only [List.append_assoc, seen]

/-- An application with two services of one name. -/
def twins : Application where
  name := "shop"
  user := "www"
  group := "www"
  workingDir := "/srv"
  services := [{ name := "web", command := "./first" }, { name := "web", command := "./second" }]
  version := .v1

/-- A service that does not pass two checks. -/
def gentle : Service where
  name := "web"
  command := "./second"
  options := { logFile := some "/etc/passwd", killMode := some "gentle" }

/-- It brings two problems of its own, beside the one that the name comes again. -/
theorem validate_set_twins : ∃ duplicates behind,
    validate twins
        = validate { twins with services := twins.services.take 1 } ++ duplicates ++ [] ++ behind
      ∧ validate { twins with services := twins.services.set 1 gentle }
        = validate { twins with services := twins.services.take 1 } ++ duplicates
          ++ [.unsafePath "web" "log" "/etc/passwd", .killMode "web" "gentle"] ++ behind := by
  obtain ⟨duplicates, behind, hset⟩ := validate_set (a := twins) (i := 1) (by decide)
  have hown : serviceProblems ⟨twins, twins.services[1]⟩ = [] := by decide +kernel
  have hgentle : serviceProblems ⟨twins, gentle⟩
      = [.unsafePath "web" "log" "/etc/passwd", .killMode "web" "gentle"] := by decide +kernel
  refine ⟨duplicates, behind, ?_, ?_⟩
  · rw [← hown]
    exact (hset twins.services[1] rfl rfl).1
  · rw [← hgentle]
    exact (hset gentle rfl rfl).1

end ProcUnits.Validation
