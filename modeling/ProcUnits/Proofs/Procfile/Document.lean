import ProcUnits.Proofs.Procfile.Fields
import ProcUnits.Proofs.Resolution
import ProcUnits.Proofs.Variables

/-!
Reading the document that a legacy application is converted to.

* `serviceOf_entryOf`: the entry of a service is read as the service itself, but that its command
  is scanned once more (`reread`);
* `optionsOf_documentFields`: the options at the top of the document are those of the host, and
  the directory of the application (`convertedOptions`);
* `readDocument_documentFields`: the application that the document declares (`convertedDraft`).
-/

namespace ProcUnits.Procfile

open Yaml (Value)

variable {a : Application} {d : Defaults} {s : Service} {start key : String}

/-! ### Steps of reading -/

lemma ok_bind {ε α β : Type} (x : α) (f : α → Except ε β) : (Except.ok x >>= f) = f x := rfl

lemma map_ok {ε α β : Type} (x : α) (f : α → β) : (Except.ok x : Except ε α).map f = .ok (f x) :=
  rfl

/-! ### Variables -/

lemma variableFields_eq (vs : Variables) :
    variableFields vs = vs.entries.map fun e => (.str e.1, .str e.2) := by
  refine Fields.foldl_insert_eq_map (f := fun e : String × String => e.1) ?_
  rw [List.Nodup, List.pairwise_map]
  exact vs.ordered.imp fun hlt => Std.ne_of_lt hlt

/-- Variables are read back from their map. -/
lemma variablesOf_variableFields (path : String) (vs : Variables) :
    variablesOf path (.map (variableFields vs)) = .ok vs := by
  have hread : (variableFields vs).mapM (variableOf path) = .ok vs.entries := by
    rw [variableFields_eq, List.mapM_map]
    simpa using mapM_eq_ok (f := variableOf path ∘ fun e : String × String =>
      ((.str e.1, .str e.2) : Value × Value)) (g := id) (l := vs.entries) fun e _ => rfl
  simp only [variablesOf, hread, ok_bind, Variables.ofList_entries]
  rfl

/-- No variables are as good as missing ones. -/
lemma variables_eq_empty {vs : Variables} (h : variableFields vs = []) : vs = .empty := by
  rw [variableFields_eq, List.map_eq_nil_iff] at h
  cases vs
  congr

/-- Variables are read back, present or missing. -/
lemma optional_variablesOf {v : Value} {vs : Variables}
    (h : v.get? key
      = if variableFields vs = [] then none else some (.map (variableFields vs))) :
    (optional variablesOf start v key).map (·.getD .empty) = .ok vs := by
  split_ifs at h with hempty
  · rw [optional_eq_none h, map_ok, variables_eq_empty hempty]
    rfl
  · rw [optional_eq_some h, variablesOf_variableFields]
    rfl

/-! ### Services -/

/-- The fields of the entry of a service. -/
def entryFields (s : Service) : Fields :=
  let text (o : Option String) : Option Value := (Options.setText o).map .str
  ((((Fields.insertOption [] "pre" (s.pre.map .str)).insert "command"
    (.str s.command)).insertOption "post" (s.post.map .str)).insertOption "working_directory"
      (text s.options.workingDir)).insertOption "log" (text s.options.logFile)
    |>.insertMap "env" (variableFields s.options.environment)

lemma entryOf_eq (s : Service) : entryOf s = .map (entryFields s) := rfl

/-- The service with its command scanned once more. Of its options an entry has only the
directory, the log and the variables. -/
def reread (s : Service) : Service :=
  { s with
    command := (Clause.scan s.command.toList).command
    options := withClause
      { workingDir := Options.setText s.options.workingDir
        logFile := Options.setText s.options.logFile
        environment := s.options.environment }
      (Clause.scan s.command.toList) }

/-- Other keys are missing in the entry of a service. -/
lemma get?_entryFields_eq_none
    (h : key ∉ ["pre", "command", "post", "working_directory", "log", "env"]) :
    (Value.map (entryFields s)).get? key = none := by
  simp only [List.mem_cons, List.not_mem_nil, or_false, not_or] at h
  simp [entryFields, Fields.get?_insertOption_of_ne, h]

/-- The options in the entry of a service are read back. -/
lemma optionsOf_entryFields (start : String) (s : Service) :
    optionsOf start (.map (entryFields s)) = .ok
      { workingDir := Options.setText s.options.workingDir
        logFile := Options.setText s.options.logFile
        environment := s.options.environment } := by
  have hdir : optional textOf start (.map (entryFields s)) "working_directory"
      = .ok (Options.setText s.options.workingDir) := optional_textOf (by simp [entryFields])
  have hlog : optional textOf start (.map (entryFields s)) "log"
      = .ok (Options.setText s.options.logFile) := optional_textOf (by simp [entryFields])
  have hnone {α : Type} {read : String → Value → Except Error α} {key : String}
      (h : key ∉ ["pre", "command", "post", "working_directory", "log", "env"]) :
      optional read start (.map (entryFields s)) key = .ok none :=
    optional_eq_none (get?_entryFields_eq_none h)
  have henv : (optional variablesOf start (.map (entryFields s)) "env").map (·.getD .empty)
      = .ok s.options.environment := optional_variablesOf (by simp [entryFields])
  simp (disch := decide) only [optionsOf, number, hdir, hlog, hnone, ok_bind, map_ok]
  cases hread : optional variablesOf start (.map (entryFields s)) "env" with
  | error e => simp [hread, Except.map] at henv
  | ok o =>
      rw [hread, map_ok, Except.ok.injEq] at henv
      rw [ok_bind, henv]
      rfl

/-- A service is read from its entry, with its command scanned once more. -/
theorem serviceOf_entryOf (s : Service) : serviceOf s.name (entryOf s) = .ok (reread s) := by
  have hcommand : optional textOf ("commands." ++ s.name ++ ".") (.map (entryFields s)) "command"
      = .ok (some s.command) := optional_textOf (by simp [entryFields])
  have hpre : optional textOf ("commands." ++ s.name ++ ".") (.map (entryFields s)) "pre"
      = .ok s.pre := optional_textOf (by simp [entryFields])
  have hpost : optional textOf ("commands." ++ s.name ++ ".") (.map (entryFields s)) "post"
      = .ok s.post := optional_textOf (by simp [entryFields])
  simp only [entryOf_eq, serviceOf, hcommand, hpre, hpost, optionsOf_entryFields, ok_bind]
  rfl

/-! ### The top of the document -/

/-- The fields of the document that a legacy application is converted to. -/
def documentFields (a : Application) (d : Defaults) : Fields :=
  (((((((Fields.insert [] "version" (.int 2)).insert "start_on_runlevel"
    (.int a.startLevel)).insert "stop_on_runlevel" (.int a.stopLevel)).insert "respawn"
      (respawnValue d)).insertMap "limits" (limitFields d)).insertPositive "kill_timeout"
        d.killTimeout).insertOption "working_directory"
          ((Options.setText (some a.workingDir)).map .str)).insert "commands"
            (.map (commandFields a.services))

lemma insertOption_setText (fs : Fields) (k t : String) :
    fs.insertOption k ((Options.setText (some t)).map .str)
      = if t.isEmpty then fs else fs.insert k (.str t) := by
  rw [Options.setText_some]
  by_cases h : t = "" <;> simp [h, Fields.insertOption]

lemma documentOf_eq (h : a.version = .v1) : documentOf a d = .ok (.map (documentFields a d)) := by
  simp only [documentOf, h, documentFields, insertOption_setText]

/-- The options for all services of a converted document. -/
def convertedOptions (a : Application) (d : Defaults) : Options where
  workingDir := Options.setText (some a.workingDir)
  killTimeout := max d.killTimeout 0
  limits := ⟨d.fileLimit, d.processLimit, d.memoryLimit⟩
  respawn :=
    if d.respawnEnabled then
      ⟨some true, firstNumber d.respawnCount standardRespawnCount,
        firstNumber d.respawnInterval standardRespawnInterval, max d.respawnDelay 0⟩
    else { enabled := some false }

/-- The entries of a map that says how services are respawned. -/
def respawnFields (d : Defaults) : Fields :=
  Fields.insertPositive
    [(.str "count", .int (firstNumber d.respawnCount standardRespawnCount)),
      (.str "interval", .int (firstNumber d.respawnInterval standardRespawnInterval))]
    "delay" d.respawnDelay

lemma respawnOf_respawnFields (path : String) (d : Defaults) :
    respawnOf path (.map (respawnFields d)) = .ok
      ⟨some true, firstNumber d.respawnCount standardRespawnCount,
        firstNumber d.respawnInterval standardRespawnInterval, max d.respawnDelay 0⟩ := by
  have hcount : number (path ++ ".") (.map (respawnFields d)) "count"
      = .ok (firstNumber d.respawnCount standardRespawnCount) :=
    number_of_int (by simp [respawnFields])
  have hinterval : number (path ++ ".") (.map (respawnFields d)) "interval"
      = .ok (firstNumber d.respawnInterval standardRespawnInterval) :=
    number_of_int (by simp [respawnFields])
  have hdelay : number (path ++ ".") (.map (respawnFields d)) "delay"
      = .ok (max d.respawnDelay 0) := number_of_positive (by simp [respawnFields])
  simp only [respawnOf, hcount, hinterval, hdelay, ok_bind]
  rfl

lemma respawnValue_eq (d : Defaults) :
    respawnValue d = if d.respawnEnabled then .map (respawnFields d) else .bool false := rfl

/-- How services are respawned is read back. -/
lemma respawnOf_respawnValue (path : String) (a : Application) (d : Defaults) :
    respawnOf path (respawnValue d) = .ok (convertedOptions a d).respawn := by
  rw [respawnValue_eq, convertedOptions]
  split_ifs
  · exact respawnOf_respawnFields path d
  · rfl

lemma limitsOf_limitFields (path : String) (d : Defaults) :
    limitsOf path (.map (limitFields d)) = .ok ⟨d.fileLimit, d.processLimit, d.memoryLimit⟩ := by
  have hfiles : number (path ++ ".") (.map (limitFields d)) "nofile" = .ok d.fileLimit :=
    number_of_nonzero (by simp [limitFields, Fields.get?_insertOption_of_ne])
  have hprocesses : number (path ++ ".") (.map (limitFields d)) "nproc" = .ok d.processLimit :=
    number_of_nonzero (by simp [limitFields, Fields.get?_insertOption_of_ne])
  have hmemory : number (path ++ ".") (.map (limitFields d)) "memlock" = .ok d.memoryLimit :=
    number_of_nonzero (by simp [limitFields, Fields.get?_insertOption_of_ne])
  simp only [limitsOf, hfiles, hprocesses, hmemory, ok_bind]
  rfl

/-- Limits are read back, present or missing. -/
lemma optional_limitsOf {v : Value}
    (h : v.get? key = if limitFields d = [] then none else some (.map (limitFields d))) :
    (optional limitsOf start v key).map (·.getD {})
      = .ok ⟨d.fileLimit, d.processLimit, d.memoryLimit⟩ := by
  split_ifs at h with hempty
  · -- an empty map is read as no limits, and they are those of the host
    have hread := limitsOf_limitFields "" d
    rw [hempty] at hread
    rw [optional_eq_none h, ← hread]
    rfl
  · rw [optional_eq_some h, limitsOf_limitFields]
    rfl

/-- The keys of a converted document. -/
def documentKeys : List String :=
  ["version", "start_on_runlevel", "stop_on_runlevel", "respawn", "limits", "kill_timeout",
    "working_directory", "commands"]

/-- Other keys are missing in the document. -/
lemma get?_documentFields_eq_none (h : key ∉ documentKeys) :
    (Value.map (documentFields a d)).get? key = none := by
  simp only [documentKeys, List.mem_cons, List.not_mem_nil, or_false, not_or] at h
  simp [documentFields, Fields.get?_insertOption_of_ne, h]

lemma isPresent_respawnValue (d : Defaults) : (respawnValue d).isPresent = true := by
  rw [respawnValue_eq]
  split_ifs <;> simp

/-- The options at the top of the document are read back. -/
lemma optionsOf_documentFields (a : Application) (d : Defaults) :
    optionsOf "" (.map (documentFields a d)) = .ok (convertedOptions a d) := by
  have hdir : optional textOf "" (.map (documentFields a d)) "working_directory"
      = .ok (convertedOptions a d).workingDir :=
    optional_textOf (by simp [documentFields, convertedOptions])
  have htimeout : number "" (.map (documentFields a d)) "kill_timeout"
      = .ok (convertedOptions a d).killTimeout := number_of_positive (by simp [documentFields])
  have hrespawn : optional respawnOf "" (.map (documentFields a d)) "respawn"
      = .ok (some (convertedOptions a d).respawn) := by
    rw [optional_eq_some (w := respawnValue d) (by simp [documentFields, isPresent_respawnValue]),
      respawnOf_respawnValue _ a, map_ok]
  have hlimits : (optional limitsOf "" (.map (documentFields a d)) "limits").map (·.getD {})
      = .ok (convertedOptions a d).limits := optional_limitsOf (by simp [documentFields])
  have hnone {α : Type} {read : String → Value → Except Error α} {key : String}
      (h : key ∉ documentKeys) : optional read "" (.map (documentFields a d)) key = .ok none :=
    optional_eq_none (get?_documentFields_eq_none h)
  have hcount : number "" (.map (documentFields a d)) "count" = .ok 0 := by
    rw [number, hnone (by decide)]
    rfl
  simp (disch := decide) only [optionsOf, hdir, htimeout, hcount, hrespawn, hnone, ok_bind]
  cases hread : optional limitsOf "" (.map (documentFields a d)) "limits" with
  | error e => simp [hread, Except.map] at hlimits
  | ok o =>
      rw [hread, map_ok, Except.ok.injEq] at hlimits
      rw [ok_bind, hlimits]
      rfl

/-! ### The whole document -/

lemma commandFields_eq {ss : List Service} (h : (ss.map (·.name)).Nodup) :
    commandFields ss = ss.map fun s => (.str s.name, entryOf s) :=
  Fields.foldl_insert_eq_map h

/-- The services are read from their entries in order. -/
lemma mapM_commandFields {ss : List Service} (h : (ss.map (·.name)).Nodup) :
    (commandFields ss).mapM serviceOfEntry = .ok (ss.map reread) := by
  rw [commandFields_eq h, List.mapM_map]
  exact mapM_eq_ok fun s _ => serviceOf_entryOf s

/-- The document says itself whether services are respawned. -/
lemma sharedOf_convertedOptions (a : Application) (d : Defaults) :
    sharedOf (convertedOptions a d) = convertedOptions a d := by
  unfold sharedOf convertedOptions
  cases d.respawnEnabled <;> rfl

/-- What the converted document declares, read with other defaults. -/
def convertedDraft (a : Application) (d d' : Defaults) : Draft where
  app :=
    { Application.ofDefaults .v2 d' (a.services.map reread) with
      workingDir := (Options.setText (some a.workingDir)).getD d'.workingDir
      startLevel := a.startLevel
      stopLevel := a.stopLevel }
  shared := convertedOptions a d

/-- The document that an application is converted to is read with any defaults, and declares the
services of the application in their order. -/
theorem readDocument_documentFields (h : (a.services.map (·.name)).Nodup) (d d' : Defaults) :
    readDocument (.map (documentFields a d)) d' = .ok (convertedDraft a d d') := by
  have hcommands : (Value.map (documentFields a d)).get? "commands"
      = some (.map (commandFields a.services)) := by simp [documentFields]
  have hdir : optional textOf "" (.map (documentFields a d)) "working_directory"
      = .ok (Options.setText (some a.workingDir)) := optional_textOf (by simp [documentFields])
  have hstart : optional intOf "" (.map (documentFields a d)) "start_on_runlevel"
      = .ok (some a.startLevel) := optional_intOf (by simp [documentFields])
  have hstop : optional intOf "" (.map (documentFields a d)) "stop_on_runlevel"
      = .ok (some a.stopLevel) := optional_intOf (by simp [documentFields])
  have hnone {α : Type} {read : String → Value → Except Error α} {key : String}
      (h : key ∉ documentKeys) : optional read "" (.map (documentFields a d)) key = .ok none :=
    optional_eq_none (get?_documentFields_eq_none h)
  simp (disch := decide) only [readDocument, hcommands, optionsOf_documentFields,
    mapM_commandFields h, hdir, hstart, hstop, hnone, ok_bind, sharedOf_convertedOptions]
  rfl

end ProcUnits.Procfile
