import ProcUnits.Proofs.Procfile.Document
import ProcUnits.Proofs.Procfile.Legacy
import ProcUnits.Proofs.Text.Utf8
import ProcUnits.Proofs.Validation.Names

/-!
Converting a legacy file and reading the result (section C.3 of the specification).

The converted document says for itself what the defaults of the host said for the legacy file. It
says it with commands that were scanned already, and reading it scans them once more.

* `detect_convert`: the converted file says of which format it is;
* `LoadsBack`: the text of the document is loaded as the document;
* `ofBytes_convert`: the application that the converted file declares (`converted`);
* `options_converted`: the options of its services;
* `convert_keeps`: the converted file declares the same services in the same order. Only a command
  that starts with the word `env` comes out shorter, as the assignments behind that word are taken
  for variables.
-/

namespace ProcUnits.Procfile

open Yaml (Value)

variable {a : Application} {d d' : Defaults} {s : Service}

/-! ### The format of a converted file -/

/-- The version stands in front of the document, and something behind it. -/
lemma exists_documentFields (a : Application) (d : Defaults) :
    ∃ e es, documentFields a d = (.str "version", .int 2) :: e :: es := by
  simp (disch := decide) only [documentFields, Fields.insertMap_eq, Fields.insertPositive_eq,
    Fields.insert_nil, Fields.insert_cons_of_ne, Fields.insertOption_cons_of_ne]
  exact ⟨_, _, rfl⟩

/-- The version is the first line of the text. -/
lemma toList_print (e : Value × Value) (es : Fields) :
    ∃ r, (Value.map ((.str "version", .int 2) :: e :: es)).print.toList
      = "---\nversion: 2\n".toList ++ r := by
  refine ⟨(Value.indentation 0 ++ Value.printEntries 0 (e :: es)).toList, ?_⟩
  have hkey : Value.leafText (.str "version") = "version" := by decide +kernel
  have hnumber : Value.printUnder 0 (.int 2) = " 2" := by decide +kernel
  simp [Value.print, Value.printAt, Value.printEntries, hkey, hnumber]

/-- A text that starts like that is one with sections. -/
lemma detect_append (r : List Char) :
    Version.detect ("---\nversion: 2\n".toList ++ r) = .v2 := rfl

/-- A converted file is one with sections. -/
theorem detect_convert {yaml : String} (h : convert a d = .ok yaml) :
    Version.detect yaml.toList = .v2 := by
  cases hversion : a.version with
  | v1 =>
      rw [convert, documentOf_eq hversion] at h
      cases h
      obtain ⟨e, es, hfields⟩ := exists_documentFields a d
      obtain ⟨r, hprint⟩ := toList_print e es
      rw [String.toList_append, hfields, hprint, List.append_assoc, detect_append]
  | v2 =>
      rw [convert, documentOf, hversion] at h
      cases h

/-! ### The application of a converted file -/

/-- The text of the converted document is loaded as the document. -/
def LoadsBack (a : Application) (d : Defaults) : Prop :=
  ∀ doc, documentOf a d = .ok doc → Value.load (doc.print ++ "\n").toList = .ok doc

instance (a : Application) (d : Defaults) : Decidable (LoadsBack a d) :=
  match h : documentOf a d with
  | .error e => .isTrue fun doc hdoc => by simp [h] at hdoc
  | .ok doc => decidable_of_iff (Value.load (doc.print ++ "\n").toList = .ok doc) <| by
      simp [LoadsBack, h]

/-- The octets of a text are decoded as the text. -/
lemma decode_encode (text : String) : decode (Text.Utf8.encode text) = .ok text.toList := by
  rw [decode, Text.Utf8.decode_encode]
  rfl

/-- The application that a converted file declares under other defaults. -/
def converted (a : Application) (d d' : Defaults) : Application :=
  (convertedDraft a d d').resolve d'

/-- A converted file is read, under any defaults. -/
theorem ofBytes_convert (hversion : a.version = .v1) (hnames : (a.services.map (·.name)).Nodup)
    (hload : LoadsBack a d) (d' : Defaults) :
    ∃ yaml, convert a d = .ok yaml
      ∧ ofBytes (Text.Utf8.encode yaml) d' = .ok (converted a d d') := by
  have hdoc := documentOf_eq (d := d) hversion
  have hyaml : convert a d = .ok ((Value.map (documentFields a d)).print ++ "\n") := by
    rw [convert, hdoc]
    rfl
  refine ⟨_, hyaml, ?_⟩
  rw [ofBytes, decode_encode, ok_bind, detect_convert hyaml, ofText, draftOfText]
  simp only [hload _ hdoc, readDocument_documentFields hnames, ok_bind]
  rfl

/-! ### Its services -/

/-- The service that a converted file declares under other defaults. -/
def convertedService (a : Application) (d d' : Defaults) (s : Service) : Service :=
  (reread s).resolve (convertedOptions a d) d'

lemma convertedService_eq (a : Application) (d d' : Defaults) (s : Service) :
    convertedService a d d' s =
      { name := s.name
        command := (Clause.scan s.command.toList).command
        pre := s.pre
        post := s.post
        options :=
          ((reread s).options.mergeShared (convertedOptions a d)).fillFromDefaults d' } := by
  rw [convertedService, Service.resolve, reread]

lemma name_convertedService (a : Application) (d d' : Defaults) (s : Service) :
    (convertedService a d d' s).name = s.name := by
  rw [convertedService_eq]

lemma services_converted (a : Application) (d d' : Defaults) :
    (converted a d d').services = a.services.map (convertedService a d d') :=
  List.map_map

lemma workingDir_converted (a : Application) (d d' : Defaults) :
    (converted a d d').workingDir = (Options.setText (some a.workingDir)).getD d'.workingDir := rfl

lemma members_converted (a : Application) (d d' : Defaults) :
    (converted a d d').members
      = a.services.map fun s => ⟨converted a d d', convertedService a d d' s⟩ := by
  rw [Application.members, services_converted, List.map_map]
  rfl

/-- The options of a service that a converted file declares. -/
lemma options_converted (hs : IsLegacy d s) (a : Application) (d' : Defaults) :
    (convertedService a d d' s).options =
      { environment := s.options.environment.union (Clause.scan s.command.toList).environment
        workingDir := firstText s.options.workingDir (Options.setText (some a.workingDir))
        logFile := s.options.logFile
        killTimeout := firstNumber (max d.killTimeout 0) d'.killTimeout
        limits := ⟨firstNumber d.fileLimit d'.fileLimit, firstNumber d.processLimit d'.processLimit,
          firstNumber d.memoryLimit d'.memoryLimit⟩
        respawn := (convertedOptions a d).respawn.fillFromDefaults d' } := by
  obtain ⟨main, hmain⟩ := hs.command_eq
  have hlog : (Clause.scan s.command.toList).log = none := by
    rw [hmain, Clause.log_scan_command]
  simp only [convertedService, reread, Service.resolve, withClause, Options.mergeShared,
    Options.fillFromDefaults, hlog, Option.or_none, Options.setText_of_ne hs.workingDir_ne,
    Options.setText_of_ne hs.logFile_ne]
  rw [show (convertedOptions a d).logFile = none from rfl, firstText_none hs.logFile_ne]
  rfl

/-- No service of a legacy file has several instances. -/
lemma instances_legacy (hs : IsLegacy d s) : s.options.instances = [none] := by
  rw [hs.options_eq]
  rfl

/-- Nor has one after conversion. -/
lemma instances_converted (hs : IsLegacy d s) (a : Application) (d' : Defaults) :
    (convertedService a d d' s).options.instances = [none] := by
  rw [options_converted hs]
  rfl

/-- The directory of a service that a converted file declares: its own, that of the application,
or that of the defaults. -/
lemma memberDir_converted (hs : IsLegacy d s) (a : Application) (d' : Defaults) :
    Application.Member.workingDir ⟨converted a d d', convertedService a d d' s⟩
      = (Options.setText s.options.workingDir).getD
        ((Options.setText (some a.workingDir)).getD d'.workingDir) := by
  change (Options.setText (convertedService a d d' s).options.workingDir).getD _ = _
  rw [options_converted hs, Options.setText_firstText, Options.setText_setText,
    workingDir_converted, Option.getD_or]
  congr 1
  cases Options.setText (some a.workingDir) <;> rfl

/-- Under the defaults of the application its directory stays. -/
lemma workingDir_converted_self (hdir : a.workingDir = d.workingDir) :
    (converted a d d).workingDir = a.workingDir := by
  rw [workingDir_converted, ← hdir, Options.setText_some]
  split_ifs with hempty
  · rw [hempty]
    rfl
  · rfl

/-- So do those of its services. -/
lemma memberDir_converted_self (hs : IsLegacy d s) (hdir : a.workingDir = d.workingDir) :
    Application.Member.workingDir ⟨converted a d d, convertedService a d d s⟩
      = Application.Member.workingDir ⟨a, s⟩ := by
  rw [memberDir_converted hs, ← workingDir_converted, workingDir_converted_self hdir]
  rfl

/-! ### Conversion keeps services -/

/-- The services are alike around their commands. -/
structure SameAround (m n : Application.Member) : Prop where
  name_eq : n.service.name = m.service.name
  pre_eq : n.service.pre = m.service.pre
  post_eq : n.service.post = m.service.post
  logFile_eq : n.options.logFile = m.options.logFile
  workingDir_eq : n.workingDir = m.workingDir

/-- The services are alike, commands and variables included. -/
structure Same (m n : Application.Member) : Prop extends SameAround m n where
  command_eq : n.service.command = m.service.command
  environment_eq : n.options.environment = m.options.environment

/-- The services are alike, but for what a scan finds in the command of the first one. -/
structure Rescanned (m n : Application.Member) : Prop extends SameAround m n where
  command_eq : n.service.command = (Clause.scan m.service.command.toList).command
  environment_eq : n.options.environment
    = m.options.environment.union (Clause.scan m.service.command.toList).environment

/-- A converted service is the service itself, with its command scanned once more. -/
lemma rescanned_converted (hs : IsLegacy d s) (hdir : a.workingDir = d.workingDir) :
    Rescanned ⟨a, s⟩ ⟨converted a d d, convertedService a d d s⟩ := by
  have hlog : (convertedService a d d s).options.logFile = s.options.logFile := by
    rw [options_converted hs]
  have henvironment : (convertedService a d d s).options.environment
      = s.options.environment.union (Clause.scan s.command.toList).environment := by
    rw [options_converted hs]
  refine ⟨⟨?_, ?_, ?_, hlog, memberDir_converted_self hs hdir⟩, ?_, henvironment⟩ <;>
    rw [convertedService_eq]

/-- Converting keeps the name of a service, what runs before and after it, its log and its
directory. It keeps the command and the variables exactly of those services whose command does not
start with `env`. -/
theorem convert_keeps {text : List Char} (h : ofText .v1 text d = .ok a)
    (hvalid : Validation.validate a = []) (hload : LoadsBack a d) :
    ∃ yaml b, convert a d = .ok yaml ∧ ofBytes (Text.Utf8.encode yaml) d = .ok b
      ∧ List.Forall₂ Rescanned a.members b.members
      ∧ (List.Forall₂ Same a.members b.members
        ↔ ∀ s ∈ a.services, ¬ Clause.Announces s.command) := by
  have hlegacy := (isLegacy_of_ofText h).2
  obtain ⟨yaml, hyaml, hread⟩ :=
    ofBytes_convert (version_of_ofText h) (Validation.names_nodup_of_validate hvalid) hload d
  have hrescanned (s : Service) (hs : s ∈ a.services) :
      Rescanned ⟨a, s⟩ ⟨converted a d d, convertedService a d d s⟩ :=
    rescanned_converted (hlegacy s hs) (workingDir_of_ofText h)
  refine ⟨yaml, converted a d d, hyaml, hread, ?_, ?_⟩ <;>
    rw [members_converted, Application.members, List.forall₂_map_left_iff,
      List.forall₂_map_right_iff, List.forall₂_same]
  · exact hrescanned
  · refine forall₂_congr fun s hs => ?_
    obtain ⟨haround, hcommand, henvironment⟩ := hrescanned s hs
    obtain ⟨main, hmain⟩ := (hlegacy s hs).command_eq
    constructor
    · -- the second scan takes at least the word `env` away
      intro hsame henv
      rw [hmain] at henv
      refine Clause.command_scan_command_ne henv ?_
      rw [← hmain]
      exact hcommand.symm.trans hsame.command_eq
    · intro henv
      have hscan := Clause.scan_command_of_not_announces (hmain ▸ henv)
      rw [← hmain] at hscan
      refine ⟨haround, ?_, ?_⟩
      · rw [hcommand, hscan]
      · rw [henvironment, hscan, Variables.union_empty]

/-- A host without special wishes. -/
def plainDefaults : Defaults where
  name := "shop"
  user := "www"
  group := "www"
  workingDir := "/srv"

/-- Of the assignments to one variable the command gets the second one. -/
def nestedText : List Char := "web: env A=1 env A=2 ./run\n".toList

/-- The application that `nestedText` declares. -/
def nestedApplication : Application :=
  .ofDefaults .v1 plainDefaults
    [{ name := "web"
       command := "env A=2 ./run"
       options := legacyOptions plainDefaults none none (.ofList [("A", "1")]) }]

lemma ofText_nestedText : ofText .v1 nestedText plainDefaults = .ok nestedApplication := by
  decide +kernel

lemma loadsBack_nestedApplication : LoadsBack nestedApplication plainDefaults := by
  decide +kernel

/-- With an assignment in front of another `env` the command is not kept, and runs with the first
value of the variable and not with the second one. -/
theorem convert_loses_env :
    ∃ yaml b, convert nestedApplication plainDefaults = .ok yaml
      ∧ ofBytes (Text.Utf8.encode yaml) plainDefaults = .ok b
      ∧ List.Forall₂ Rescanned nestedApplication.members b.members
      ∧ ¬ List.Forall₂ Same nestedApplication.members b.members := by
  obtain ⟨yaml, b, hyaml, hread, hrescanned, hsame⟩ :=
    convert_keeps ofText_nestedText (by decide +kernel) loadsBack_nestedApplication
  refine ⟨yaml, b, hyaml, hread, hrescanned, fun h => ?_⟩
  have henv : Clause.Announces "env A=2 ./run" := by decide +kernel
  exact hsame.mp h _ List.mem_cons_self henv

end ProcUnits.Procfile
