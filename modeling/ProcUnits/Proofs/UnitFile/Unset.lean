import Mathlib.Data.List.Forall2
import ProcUnits.Procfile.Read
import ProcUnits.Proofs.Resolution
import ProcUnits.Proofs.UnitFile.Alike

/-!
Empty texts among the options, which are as good as missing ones (section 4.3 of the specification).

An empty text stands for none, and all that is written for a service should be the same for both.
Units and the script that reloads an application are. A helper script is not if its service has
variables: then an empty name of a file is taken for that of a file.

* `Options.unsetEmpty`: the options without empty texts, and `serviceUnit_unsetEmpty` and others:
  units do not show the difference;
* `environment_eq_append`, `helper_eq`: where a helper script shows it;
* `TextUnset`, `OptionsUnset`, `ServiceUnset`, `ApplicationUnset`: some empty texts are taken away;
* `texts_unset`: exactly when no text changes by that.
-/

namespace ProcUnits

open Options (setText)

/-! ### Without empty texts -/

/-- The options, with none for each empty text. -/
def Options.unsetEmpty (o : Options) : Options :=
  { o with
    variablesFile := setText o.variablesFile
    workingDir := setText o.workingDir
    logFile := setText o.logFile
    killSignal := setText o.killSignal
    killMode := setText o.killMode
    reloadSignal := setText o.reloadSignal }

/-- The service, with none for each empty text among its options. -/
def Service.unsetEmpty (s : Service) : Service := { s with options := s.options.unsetEmpty }

namespace Application

/-- The application, with none for each empty text among the options of its services. -/
def unsetEmpty (a : Application) : Application :=
  { a with services := a.services.map Service.unsetEmpty }

/-- The service of the application, both without empty texts. -/
def Member.unsetEmpty (m : Member) : Member := ⟨m.app.unsetEmpty, m.service.unsetEmpty⟩

lemma Member.workingDir_unsetEmpty (m : Member) : m.unsetEmpty.workingDir = m.workingDir := by
  rw [workingDir, workingDir]
  exact congrArg (·.getD m.app.workingDir) (Options.setText_setText _)

lemma isReloadSignalSet_unsetEmpty (a : Application) :
    a.unsetEmpty.isReloadSignalSet = a.isReloadSignalSet := by
  simp [isReloadSignalSet, unsetEmpty, Service.unsetEmpty, Options.unsetEmpty,
    Options.isReloadSignalSet, Options.isTextSet, Options.setText_setText, Function.comp_def]

end Application

namespace UnitFile

variable {a b : Application} {o p : Options} {i j : Instance} {m : Application.Member}
  {system : InitSystem} {date : String}

/-- The instance, with none for each empty text among its options. -/
def Instance.unsetEmpty (i : Instance) : Instance := { i with member := i.member.unsetEmpty }

lemma instances_unsetEmpty (a : Application) (helperDir : String) :
    instances a.unsetEmpty helperDir = (instances a helperDir).map Instance.unsetEmpty := by
  simp [instances, instancesOf, Application.members, Application.unsetEmpty, List.flatMap_map,
    List.map_flatMap, Function.comp_def, Instance.unsetEmpty, Application.Member.unsetEmpty]
  rfl

lemma stem_unsetEmpty (i : Instance) : i.unsetEmpty.stem = i.stem := rfl

/-! ### Units -/

lemma stems_unsetEmpty (a : Application) : stems a.unsetEmpty = stems a := by
  rw [stems_eq _ "", stems_eq _ "", instances_unsetEmpty, List.map_map]
  rfl

lemma appUnit_unsetEmpty (system : InitSystem) (date : String) (a : Application) :
    system.appUnit date a.unsetEmpty = system.appUnit date a := by
  have halike : ApplicationAlike a.unsetEmpty a :=
    ⟨rfl, rfl, rfl, rfl, rfl, rfl, rfl, rfl, rfl, stems_unsetEmpty a⟩
  exact appUnit_eq halike system date

lemma reloadHelper_unsetEmpty (system : InitSystem) (date : String) (a : Application) :
    system.reloadHelper date a.unsetEmpty = system.reloadHelper date a := by
  cases system with
  | systemd =>
      rw [InitSystem.reloadHelper, InitSystem.reloadHelper, Systemd.reloadHelper,
        Systemd.reloadHelper, Systemd.reloadTemplate, Systemd.reloadTemplate,
        Application.isReloadSignalSet_unsetEmpty, stems_unsetEmpty]
      rfl
  | upstart => rfl

lemma systemd_killItems_unsetEmpty (o : Options) :
    Systemd.killItems o.unsetEmpty = Systemd.killItems o := by
  simp only [Systemd.killItems, Options.unsetEmpty, Options.setText_setText]
  rfl

lemma upstart_killItems_unsetEmpty (o : Options) :
    Upstart.killItems o.unsetEmpty = Upstart.killItems o := by
  simp only [Upstart.killItems, Upstart.lineFor, Options.unsetEmpty, Options.setText_setText]
  rfl

/-- The unit of an instance does not show empty texts. -/
lemma serviceUnit_unsetEmpty (system : InitSystem) (date : String) (i : Instance) :
    system.serviceUnit date i.unsetEmpty = system.serviceUnit date i := by
  have hoptions : i.unsetEmpty.member.options = i.member.options.unsetEmpty := rfl
  have hdir : i.unsetEmpty.member.workingDir = i.member.workingDir :=
    i.member.workingDir_unsetEmpty
  have hreload : setText i.member.options.unsetEmpty.reloadSignal
      = setText i.member.options.reloadSignal := Options.setText_setText _
  cases system with
  | systemd =>
      rw [InitSystem.serviceUnit, InitSystem.serviceUnit, Systemd.serviceTemplate,
        Systemd.serviceTemplate, hoptions, systemd_killItems_unsetEmpty, hdir, hreload]
      rfl
  | upstart =>
      rw [InitSystem.serviceUnit, InitSystem.serviceUnit, Upstart.serviceTemplate,
        Upstart.serviceTemplate, hoptions, upstart_killItems_unsetEmpty]
      rfl

/-! ### Scripts -/

/-- What stands in front of the environment in the commands of a service. -/
def chainFront (s : Service) : String :=
  (match s.pre with | some c => c ++ " && " | none => "")
    ++ if s.post.isNone then "exec " else ""

/-- What stands behind the environment in the commands of a service. -/
def chainBack (m : Application.Member) : String :=
  m.service.command ++ redirection m
    ++ match m.service.post with | some c => " && " ++ c | none => ""

lemma commandChain_eq (m : Application.Member) :
    commandChain m = chainFront m.service ++ environment m ++ chainBack m := by
  cases hpre : m.service.pre <;> cases hpost : m.service.post <;>
    simp [commandChain, stages, mainStage, chainFront, chainBack, hpre, hpost,
      String.intercalate_cons_cons, String.append_assoc, -String.reduceAppend]

/-- What stands in front of the environment in a helper script. -/
def helperFront (system : InitSystem) (date : String) (i : Instance) : String :=
  scriptHead system.name date i.member.app
    ++ ((match system with
      | .systemd => ""
      | .upstart => "cd " ++ i.member.workingDir ++ " && ") ++ chainFront i.member.service)

/-- A helper script is the environment of its service with other texts around it. -/
lemma helper_eq (system : InitSystem) (date : String) (i : Instance) :
    system.helper date i
      = helperFront system date i ++ environment i.member ++ (chainBack i.member ++ "\n") := by
  cases system with
  | systemd =>
      rw [InitSystem.helper, helper_eq_append, commandChain_eq, helperFront]
      simp [String.append_assoc, InitSystem.name]
  | upstart =>
      rw [InitSystem.helper, helper_eq_append, commandChain_eq, helperFront]
      simp [String.append_assoc, InitSystem.name]

lemma helperFront_unsetEmpty (system : InitSystem) (date : String) (i : Instance) :
    helperFront system date i.unsetEmpty = helperFront system date i := by
  have hdir : i.unsetEmpty.member.workingDir = i.member.workingDir :=
    i.member.workingDir_unsetEmpty
  cases system with
  | systemd => rfl
  | upstart =>
      rw [helperFront, helperFront, hdir]
      rfl

lemma redirection_unsetEmpty (m : Application.Member) :
    redirection m.unsetEmpty = redirection m := by
  have hfile : m.unsetEmpty.options.logFile = setText m.options.logFile := rfl
  rw [redirection, redirection, Options.isCustomLogEnabled, Options.isCustomLogEnabled,
    Application.Member.logPath?, Application.Member.logPath?, m.workingDir_unsetEmpty, hfile]
  cases m.options.logFile with
  | none => rfl
  | some t => by_cases ht : t = "" <;> simp [Options.isTextSet, Options.setText_some, ht]

lemma chainBack_unsetEmpty (m : Application.Member) : chainBack m.unsetEmpty = chainBack m := by
  rw [chainBack, chainBack, redirection_unsetEmpty]
  rfl

/-- The service has variables, and an empty name for a file with more of them. -/
def HasEmptyFile (s : Service) : Prop :=
  s.options.areVariablesSet = true ∧ s.options.variablesFile = some ""

instance (s : Service) : Decidable (HasEmptyFile s) := inferInstanceAs (Decidable (_ ∧ _))

/-- What the environment shows of an empty name for a file. -/
def emptyFileText (m : Application.Member) : String :=
  if HasEmptyFile m.service then
    "$(grep -Ev '^\\s*(#|$)' " ++ Path.resolve m.workingDir "" ++ " 2>/dev/null | xargs) "
  else ""

/-- The environment shows an empty name for a file if there are variables as well. -/
lemma environment_eq_append (m : Application.Member) :
    environment m = environment m.unsetEmpty ++ emptyFileText m := by
  have hfile : m.unsetEmpty.options.variablesFile = setText m.options.variablesFile := rfl
  have hvariables : m.unsetEmpty.options.environment = m.options.environment := rfl
  rw [environment, environment, emptyFileText, Options.areVariablesSet, Options.areVariablesSet,
    Options.isVariablesFileSet, Options.isVariablesFileSet, Application.Member.variablesPath?,
    Application.Member.variablesPath?, m.workingDir_unsetEmpty, hfile, hvariables]
  have hempty : HasEmptyFile m.service
      ↔ m.options.environment.isEmpty = false ∧ m.options.variablesFile = some "" := by
    simp [HasEmptyFile, Options.areVariablesSet]
  cases hf : m.options.variablesFile with
  | none => simp [Options.isTextSet, hempty, hf]
  | some t =>
      by_cases ht : t = ""
      · cases hv : m.options.environment.isEmpty <;>
          simp [Options.setText_some, Options.isTextSet, ht, hempty, hf, hv, String.append_assoc]
      · simp [Options.setText_some, Options.isTextSet, ht, hempty, hf]

/-! ### Taking empty texts away -/

/-- The option is the same, or it was an empty text and is none. -/
inductive TextUnset : Option String → Option String → Prop
  | same (o : Option String) : TextUnset o o
  | empty : TextUnset (some "") none

/-- Some empty texts among the options are taken away. -/
structure OptionsUnset (o p : Options) : Prop where
  variablesFile : TextUnset o.variablesFile p.variablesFile
  workingDir : TextUnset o.workingDir p.workingDir
  logFile : TextUnset o.logFile p.logFile
  killSignal : TextUnset o.killSignal p.killSignal
  killMode : TextUnset o.killMode p.killMode
  reloadSignal : TextUnset o.reloadSignal p.reloadSignal
  others :
    { o with
      variablesFile := p.variablesFile
      workingDir := p.workingDir
      logFile := p.logFile
      killSignal := p.killSignal
      killMode := p.killMode
      reloadSignal := p.reloadSignal } = p

/-- Some empty texts among the options of the service are taken away. -/
structure ServiceUnset (s t : Service) : Prop where
  options : OptionsUnset s.options t.options
  others : { s with options := t.options } = t

/-- Some empty texts among the options of some services are taken away. -/
structure ApplicationUnset (a b : Application) : Prop where
  services : List.Forall₂ ServiceUnset a.services b.services
  others : { a with services := b.services } = b

lemma TextUnset.setText_eq {o p : Option String} (h : TextUnset o p) : setText o = setText p := by
  cases h <;> rfl

lemma OptionsUnset.unsetEmpty_eq (h : OptionsUnset o p) : o.unsetEmpty = p.unsetEmpty := by
  rw [← h.others]
  simp only [Options.unsetEmpty, h.variablesFile.setText_eq, h.workingDir.setText_eq,
    h.logFile.setText_eq, h.killSignal.setText_eq, h.killMode.setText_eq,
    h.reloadSignal.setText_eq]

lemma ServiceUnset.unsetEmpty_eq {s t : Service} (h : ServiceUnset s t) :
    s.unsetEmpty = t.unsetEmpty := by
  rw [← h.others]
  simp only [Service.unsetEmpty, h.options.unsetEmpty_eq]

lemma ApplicationUnset.unsetEmpty_eq (h : ApplicationUnset a b) :
    a.unsetEmpty = b.unsetEmpty := by
  have hservices : a.services.map Service.unsetEmpty = b.services.map Service.unsetEmpty := by
    rw [← List.forall₂_eq_eq_eq, List.forall₂_map_left_iff, List.forall₂_map_right_iff]
    exact h.services.imp fun _ _ => ServiceUnset.unsetEmpty_eq
  rw [← h.others, Application.unsetEmpty, hservices]
  rfl

/-- An empty name for a file that counts is kept. -/
def KeepsEmptyFile (s t : Service) : Prop := HasEmptyFile s → HasEmptyFile t

/-- Helper scripts of instances that differ in empty texts are the same just if an empty name for a
file is kept where it counts. -/
lemma helper_eq_iff (hij : i.unsetEmpty = j.unsetEmpty)
    (hback : HasEmptyFile j.member.service → HasEmptyFile i.member.service) :
    system.helper date i = system.helper date j
      ↔ KeepsEmptyFile i.member.service j.member.service := by
  have hfront : helperFront system date i = helperFront system date j := by
    rw [← helperFront_unsetEmpty, hij, helperFront_unsetEmpty]
  have hmember : i.member.unsetEmpty = j.member.unsetEmpty := congrArg Instance.member hij
  have hchain : chainBack i.member = chainBack j.member := by
    rw [← chainBack_unsetEmpty, hmember, chainBack_unsetEmpty]
  have hdir : i.member.workingDir = j.member.workingDir := by
    rw [← Application.Member.workingDir_unsetEmpty, hmember,
      Application.Member.workingDir_unsetEmpty]
  rw [helper_eq, helper_eq, hfront, hchain, String.append_left_inj, String.append_right_inj,
    environment_eq_append, environment_eq_append j.member, hmember, String.append_right_inj,
    emptyFileText, emptyFileText, hdir, KeepsEmptyFile]
  by_cases hi : HasEmptyFile i.member.service <;> by_cases hj : HasEmptyFile j.member.service
  · simp [hi, hj]
  · simp [hi, hj]
  · exact absurd (hback hj) hi
  · simp [hi, hj]

lemma ServiceUnset.count_eq {s t : Service} (h : ServiceUnset s t) :
    s.options.count = t.options.count := by
  rw [← h.options.others]

lemma ServiceUnset.hasEmptyFile_of {s t : Service} (h : ServiceUnset s t) (ht : HasEmptyFile t) :
    HasEmptyFile s := by
  obtain ⟨hvariables, hfile⟩ := ht
  have henvironment : s.options.environment = t.options.environment := by
    rw [← h.options.others]
  have hunset := h.options.variablesFile
  rw [hfile] at hunset
  refine ⟨?_, ?_⟩
  · rwa [Options.areVariablesSet, henvironment]
  · generalize s.options.variablesFile = o at hunset
    cases hunset
    rfl

/-- The helper scripts of one service. -/
lemma map_helper_instancesOf_iff {s t : Service} (hab : a.unsetEmpty = b.unsetEmpty)
    (h : ServiceUnset s t) (system : InitSystem) (date helperDir : String) :
    (instancesOf helperDir ⟨a, s⟩).map (system.helper date)
      = (instancesOf helperDir ⟨b, t⟩).map (system.helper date) ↔ KeepsEmptyFile s t := by
  have hunset (index : Option ℕ) : Instance.unsetEmpty ⟨⟨a, s⟩, index, helperDir⟩
      = Instance.unsetEmpty ⟨⟨b, t⟩, index, helperDir⟩ := by
    simp only [Instance.unsetEmpty, Application.Member.unsetEmpty, hab, h.unsetEmpty_eq]
  have hne : s.options.instances ≠ [] := by
    refine List.ne_nil_of_length_pos ?_
    rw [Options.instances_length]
    split_ifs <;> omega
  have hiff (index : Option ℕ) : system.helper date ⟨⟨a, s⟩, index, helperDir⟩
      = system.helper date ⟨⟨b, t⟩, index, helperDir⟩ ↔ KeepsEmptyFile s t :=
    helper_eq_iff (hunset index) h.hasEmptyFile_of
  have hinstances : (Application.Member.mk b t).options.instances
      = (Application.Member.mk a s).options.instances :=
    Options.instances_congr h.count_eq.symm
  rw [instancesOf, instancesOf, List.map_map, List.map_map, hinstances, List.map_inj_left]
  obtain ⟨index, hindex⟩ := List.exists_mem_of_ne_nil _ hne
  exact ⟨fun heq => (hiff index).mp (heq index hindex),
    fun hkeeps index _ => (hiff index).mpr hkeeps⟩

/-- The helper scripts of several services, one after the other. -/
lemma flatMap_helper_iff {ss ts : List Service} (hab : a.unsetEmpty = b.unsetEmpty)
    (h : List.Forall₂ ServiceUnset ss ts) (system : InitSystem) (date helperDir : String) :
    (ss.flatMap fun s => (instancesOf helperDir ⟨a, s⟩).map (system.helper date))
      = (ts.flatMap fun t => (instancesOf helperDir ⟨b, t⟩).map (system.helper date))
      ↔ List.Forall₂ KeepsEmptyFile ss ts := by
  induction h with
  | nil => simp
  | @cons s t ss ts hst _ ih =>
      rw [List.flatMap_cons, List.flatMap_cons, List.forall₂_cons, ← ih,
        ← map_helper_instancesOf_iff hab hst system date helperDir]
      -- a service has as many scripts on both sides, so equal lists are equal service by service
      have hlength : ((instancesOf helperDir ⟨a, s⟩).map (system.helper date)).length
          = ((instancesOf helperDir ⟨b, t⟩).map (system.helper date)).length := by
        rw [List.length_map, List.length_map, instancesOf, instancesOf, List.length_map,
          List.length_map]
        exact congrArg List.length (Options.instances_congr hst.count_eq)
      exact ⟨fun heq => List.append_inj heq hlength, fun heq => by rw [heq.1, heq.2]⟩

lemma helpers_eq_flatMap (a : Application) (system : InitSystem) (date helperDir : String) :
    (instances a helperDir).map (system.helper date)
      = a.services.flatMap fun s => (instancesOf helperDir ⟨a, s⟩).map (system.helper date) := by
  rw [instances, Application.members, List.map_flatMap, List.flatMap_map]

/-- Where empty texts among the options of services are taken away, the unit of the application, the
script that reloads it and the units of all instances under the same names stay as they are. The
helper scripts do so exactly if no service with variables of its own loses an empty name for a file
with more of them. -/
theorem texts_unset (h : ApplicationUnset a b) (system : InitSystem) (date helperDir : String) :
    system.appUnit date a = system.appUnit date b
    ∧ system.reloadHelper date a = system.reloadHelper date b
    ∧ (instances a helperDir).map (fun i => (i.stem, system.serviceUnit date i))
      = (instances b helperDir).map (fun i => (i.stem, system.serviceUnit date i))
    ∧ ((instances a helperDir).map (system.helper date)
        = (instances b helperDir).map (system.helper date)
      ↔ List.Forall₂ KeepsEmptyFile a.services b.services) := by
  have hab := h.unsetEmpty_eq
  have hunits (a : Application) :
      (instances a helperDir).map (fun i => (i.stem, system.serviceUnit date i))
        = (instances a.unsetEmpty helperDir).map fun i =>
          (i.stem, system.serviceUnit date i) := by
    rw [instances_unsetEmpty, List.map_map]
    refine List.map_congr_left fun i _ => ?_
    rw [Function.comp_apply, stem_unsetEmpty, serviceUnit_unsetEmpty]
  refine ⟨?_, ?_, ?_, ?_⟩
  · rw [← appUnit_unsetEmpty, hab, appUnit_unsetEmpty]
  · rw [← reloadHelper_unsetEmpty, hab, reloadHelper_unsetEmpty]
  · rw [hunits a, hab, ← hunits b]
  · rw [helpers_eq_flatMap, helpers_eq_flatMap]
    exact flatMap_helper_iff hab h.services system date helperDir

/-- A host with a directory. -/
def fileDefaults : Defaults where
  name := "shop"
  user := "www"
  group := "www"
  workingDir := "/srv"

/-- A service with a variable. -/
def servingWith (variablesFile : Option String) : Service where
  name := "web"
  command := "serve"
  options :=
    { environment := .ofList [("A", "1")]
      variablesFile
      respawn := { enabled := some true } }

/-- The application of that service. -/
def servingApplication (variablesFile : Option String) : Application :=
  .ofDefaults .v2 fileDefaults [servingWith variablesFile]

/-- An empty name of a file for all services is passed on to one with variables, and its helper
script reads the directory of the service as that file. -/
theorem texts_unset_serving :
    Procfile.ofText .v2
      ("version: 2\nenv_file: ''\ncommands:\n"
        ++ "  web:\n    command: serve\n    env:\n      A: 1\n").toList fileDefaults
      = .ok (servingApplication (some ""))
    ∧ ApplicationUnset (servingApplication (some "")) (servingApplication none)
    ∧ commandChain ⟨servingApplication (some ""), servingWith (some "")⟩
      = "exec env A=1 $(grep -Ev '^\\s*(#|$)' /srv/ 2>/dev/null | xargs) serve"
    ∧ commandChain ⟨servingApplication none, servingWith none⟩ = "exec env A=1 serve"
    ∧ (instances (servingApplication (some "")) "/helpers").map (InitSystem.systemd.helper "today")
      ≠ (instances (servingApplication none) "/helpers").map
        (InitSystem.systemd.helper "today") := by
  have hunset : ApplicationUnset (servingApplication (some "")) (servingApplication none) := by
    have hoptions : OptionsUnset (servingWith (some "")).options (servingWith none).options :=
      ⟨.empty, .same _, .same _, .same _, .same _, .same _, rfl⟩
    exact ⟨.cons ⟨hoptions, rfl⟩ .nil, rfl⟩
  refine ⟨by decide +kernel, hunset, by decide +kernel, by decide +kernel, fun heq => ?_⟩
  obtain ⟨-, -, -, hhelpers⟩ := texts_unset hunset .systemd "today" "/helpers"
  have hkeeps := hhelpers.mp heq
  have hserving : KeepsEmptyFile (servingWith (some "")) (servingWith none) :=
    (List.forall₂_cons.mp hkeeps).1
  exact absurd (hserving (by decide +kernel)) (by decide +kernel)

end UnitFile

end ProcUnits
