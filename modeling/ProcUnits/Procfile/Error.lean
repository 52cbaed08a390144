import ProcUnits.Host.OsError
import ProcUnits.Text.Numeral
import ProcUnits.Text.Utf8
import ProcUnits.Yaml.Token

/-!
Why a service file cannot be read (sections 7 and B.2 of the specification). Each error is a cause;
`Error.message` has the words.
-/

namespace ProcUnits.Procfile

/-- What a value was expected to be. -/
inductive Expected where
  | text
  | integer
  | boolean
  | map
  | scalar
  deriving DecidableEq, Repr

/-- The words for what was expected. -/
def Expected.words : Expected → String
  | .text => "a string"
  | .integer => "an integer"
  | .boolean => "a boolean"
  | .map => "a map"
  | .scalar => "a scalar"

/-- What is wrong with the value of a property. -/
inductive Fault where
  | required
  /-- The value has another type. -/
  | wrongType (expected : Expected) (kind : String)
  /-- The text is no number of the range. -/
  | numeral (fault : Text.Numeral.Fault) (text : String)
  /-- Some name among the variables is no scalar. -/
  | variableName
  deriving DecidableEq, Repr

/-- The text of a fault. -/
def Fault.message : Fault → String
  | .required => "value is required"
  | .wrongType e k => s!"expected {e.words}, got {k}"
  | .numeral f t => s!"{f.message} (\"{t}\")"
  | .variableName => "variable names must be scalars"

/-- What keeps a file from being read at all. -/
inductive FileFault where
  | missing
  | notRegular
  | empty
  deriving DecidableEq, Repr

/-- The text of a fault. -/
def FileFault.message : FileFault → String
  | .missing => "does not exist"
  | .notRegular => "is not a regular file"
  | .empty => "is empty"

/-- An error that ends the reading of a service file. -/
inductive Error where
  | notUtf8 (fault : Text.Utf8.Malformed)
  /-- A line of a legacy file is no label with a command. -/
  | badLine (line : String)
  /-- Nothing follows the change of directory. -/
  | onlyChangeDir (service : String)
  /-- Two separators follow one another, or one stands at an end. -/
  | emptyCommand (service fragment : String)
  | tooManyCommands (service : String)
  | notYaml (cause : Yaml.Cause)
  | noCommands
  /-- The name of a service is no scalar. -/
  | serviceName (kind : String)
  /-- The definition of a service is no map. -/
  | serviceKind (service kind : String)
  /-- The value under a key has a fault. -/
  | property (key : String) (fault : Fault)
  /-- The file to convert is in the new format already. -/
  | notLegacy
  | file (path : String) (fault : FileFault)
  | io (path : String) (error : Host.OsError)
  deriving DecidableEq, Repr

/-- The text of an error. -/
def Error.message : Error → String
  | .notUtf8 f => s!"procfile is not valid UTF-8: {f.message}"
  | .badLine l => s!"procfile v1 should have format 'some_label: command', got: {l}"
  | .onlyChangeDir n => s!"service {n}: 'cd' must be followed by a command"
  | .emptyCommand n f => s!"service {n}: empty command in '{f}'"
  | .tooManyCommands n => s!"service {n}: at most pre, main and post commands can be chained"
  | .notYaml c => s!"can't parse procfile as YAML: {c.message}"
  | .noCommands => "commands section is missing in procfile"
  | .serviceName k => s!"service name must be a scalar, got {k}"
  | .serviceKind n k => s!"service {n}: definition must be a map, got {k}"
  | .property k f => s!"can't parse \"{k}\" value: {f.message}"
  | .notLegacy => "procfile is already in v2 format"
  | .file p f => s!"procfile {p} {f.message}"
  | .io p e => s!"can't read procfile {p}: {e.message}"

end ProcUnits.Procfile
