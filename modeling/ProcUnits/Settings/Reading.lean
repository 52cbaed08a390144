import ProcUnits.Host.FileTree
import ProcUnits.Settings
import ProcUnits.Settings.Scalar
import ProcUnits.Text.Utf8

/-!
Reading settings from their YAML file (section B.3 of the specification).

Keys without a meaning are passed over, with whatever is under them. A key with a meaning stands
once at most in its section. A section may be empty.

* `Settings.Fault`: what is wrong with the text;
* `Settings.ofText`: the settings of a text;
* `Settings.LoadError`, `Settings.load`: the settings of the file at a path.
-/

namespace ProcUnits.Settings

open Host (FileTree)
open Yaml (Node Cause)

/-- What a value was expected to be. -/
inductive Expected where
  | section
  | text
  | integer
  | boolean
  deriving DecidableEq, Repr

/-- The words for what was expected. -/
def Expected.words : Expected → String
  | .section => "a map"
  | .text => "a string"
  | .integer => "an integer"
  | .boolean => "a boolean"

/-- What is wrong with the text of settings. -/
inductive Fault where
  | notYaml (cause : Cause)
  | severalDocuments
  /-- Some key is no scalar. -/
  | keyKind
  | repeated (key : String)
  | wrongType (key : String) (expected : Expected)
  deriving DecidableEq, Repr

/-- The text of a fault. -/
def Fault.message : Fault → String
  | .notYaml c => c.message
  | .severalDocuments => "there is more than one document"
  | .keyKind => "a key is not a scalar"
  | .repeated k => s!"duplicate field \x60{k}\x60"
  | .wrongType k e => s!"{k}: expected {e.words}"

/-! ### Sections -/

/-- The entries of a section under the keys that have a meaning there. -/
abbrev Fields := List (String × Node)

/-- The entries under the given keys. -/
def fieldsOf (keys : List String) : List (Node × Node) → Except Fault Fields
  | [] => .ok []
  | (key, node) :: r =>
    match textOf? key with
    | none => .error .keyKind
    | some k => do
      let fields ← fieldsOf keys r
      if !keys.contains k then .ok fields
      else if (fields.lookup k).isSome then .error (.repeated k)
      else .ok ((k, node) :: fields)

/-- The entries of the section that is a node. The empty section has none; a section that refers
to the node it is part of has the entries of that. -/
def sectionFields (name : String) (keys : List String) (around : List (Node × Node)) (node : Node) :
    Except Fault Fields :=
  match node with
  | .map entries => fieldsOf keys entries
  | .loop => fieldsOf keys around
  | .scalar .plain _ "" => .ok []
  | _ => .error (.wrongType name .section)

/-- The value under a key, if the key is there. -/
def fieldValue {α : Type} (fs : Fields) (key : String) (expected : Expected)
    (read : Node → Option α) (default : α) : Except Fault α :=
  match fs.lookup key with
  | none => .ok default
  | some node =>
    match read node with
    | some a => .ok a
    | none => .error (.wrongType key expected)

/-- The text under a key. -/
def textField (fs : Fields) (key default : String) : Except Fault String :=
  fieldValue fs key .text textOf? default

/-- The integer under a key. -/
def intField (fs : Fields) (key : String) : Except Fault Int :=
  fieldValue fs key .integer intOf? 0

/-- The truth value under a key. -/
def boolField (fs : Fields) (key : String) (default : Bool) : Except Fault Bool :=
  fieldValue fs key .boolean boolOf? default

/-! ### The five sections -/

/-- The keys of a section. -/
def Identity.keys : List String := ["run_user", "run_group", "prefix"]

/-- The section of the entries. -/
def Identity.ofFields (fs : Fields) : Except Fault Identity := do
  return {
    user := ← textField fs "run_user" ""
    group := ← textField fs "run_group" ""
    nameStart := ← textField fs "prefix" "" }

/-- The keys of a section. -/
def Formats.keys : List String := ["version1", "version2"]

/-- The section of the entries. -/
def Formats.ofFields (fs : Fields) : Except Fault Formats := do
  return {
    version1 := ← boolField fs "version1" true
    version2 := ← boolField fs "version2" true }

/-- The keys of a section. -/
def Paths.keys : List String := ["working_dir", "helper_dir", "systemd_dir", "upstart_dir"]

/-- The section of the entries. -/
def Paths.ofFields (fs : Fields) : Except Fault Paths := do
  let d : Paths := {}
  return {
    workingDir := ← textField fs "working_dir" d.workingDir
    helperDir := ← textField fs "helper_dir" d.helperDir
    systemdDir := ← textField fs "systemd_dir" d.systemdDir
    upstartDir := ← textField fs "upstart_dir" d.upstartDir }

/-- The keys of a section. -/
def ServiceDefaults.keys : List String :=
  ["nproc", "nofile", "memlock", "respawn", "respawn_count", "respawn_interval", "respawn_delay",
    "kill_timeout"]

/-- The section of the entries. -/
def ServiceDefaults.ofFields (fs : Fields) : Except Fault ServiceDefaults := do
  return {
    processes := ← intField fs "nproc"
    files := ← intField fs "nofile"
    lockedMemory := ← intField fs "memlock"
    respawn := ← boolField fs "respawn" false
    respawnCount := ← intField fs "respawn_count"
    respawnInterval := ← intField fs "respawn_interval"
    respawnDelay := ← intField fs "respawn_delay"
    killTimeout := ← intField fs "kill_timeout" }

/-- The keys of a section. -/
def Logging.keys : List String := ["enabled", "file", "perms", "level"]

/-- The section of the entries. -/
def Logging.ofFields (fs : Fields) : Except Fault Logging := do
  let d : Logging := {}
  return {
    enabled := ← boolField fs "enabled" d.enabled
    file := ← fieldValue fs "file" .text optionalTextOf? d.file
    mode := ← textField fs "perms" d.mode
    level := ← textField fs "level" d.level }

/-- The names of the sections. -/
def sectionNames : List String := ["main", "procfile", "paths", "defaults", "log"]

/-- The settings of a document. -/
def ofNode (node : Node) : Except Fault Settings := do
  let entries : List (Node × Node) :=
    match node with
    | .map es => es
    | _ => []
  let top ← sectionFields "the document" sectionNames entries node
  let fieldsAt (name : String) (keys : List String) : Except Fault Fields :=
    match top.lookup name with
    | none => .ok []
    | some n => sectionFields name keys entries n
  return {
    main := ← Identity.ofFields (← fieldsAt "main" Identity.keys)
    procfile := ← Formats.ofFields (← fieldsAt "procfile" Formats.keys)
    paths := ← Paths.ofFields (← fieldsAt "paths" Paths.keys)
    defaults := ← ServiceDefaults.ofFields (← fieldsAt "defaults" ServiceDefaults.keys)
    log := ← Logging.ofFields (← fieldsAt "log" Logging.keys) }

/-- The settings of a text (section B.3). One without a document sets nothing. -/
def ofText (text : List Char) : Except Fault Settings :=
  match Node.documents .lenient text with
  | .error c => .error (.notYaml c)
  | .ok [] => .ok {}
  | .ok [node] => ofNode node
  | .ok _ => .error .severalDocuments

/-! ### Files -/

/-- Why settings cannot be loaded. -/
inductive LoadError where
  /-- There is no file at the path. -/
  | missing (path : String)
  /-- The file cannot be read as text. -/
  | unreadable (path : String)
  | empty (path : String)
  | malformed (path : String) (fault : Fault)
  deriving DecidableEq, Repr

/-- The text of an error. -/
def LoadError.message : LoadError → String
  | .missing p => s!"Config {p} does not exist"
  | .unreadable p => s!"Config {p} is not readable"
  | .empty p => s!"Config {p} is empty"
  | .malformed p _ => s!"parsing {p}"

/-- The settings of the file at a path. -/
def load (files : FileTree) (path : String) : Except LoadError Settings := do
  if !files.isFile path then throw (.missing path)
  match (files.read path).toOption.bind fun octets => (Text.Utf8.decode octets).toOption with
  | none => throw (.unreadable path)
  | some text =>
    if Text.isBlankText text then throw (.empty path)
    (ofText text).mapError (.malformed path)

end ProcUnits.Settings
