import ProcUnits.CommandLine

/-!
The command line of the converter (section C.3 of the specification).

* `Convert`: what the command line asks for; `Convert.ofWords` reads it.
-/

namespace ProcUnits.CommandLine

/-- What the converter is to do. -/
structure Convert where
  procfile : String
  /-- The path of the settings, if the defaults are not meant. -/
  settings : Option String := none
  appName : String
  /-- The service file is replaced. -/
  inPlace : Bool := false
  deriving DecidableEq, Repr

namespace Convert

/-- The arguments of the converter. -/
def arguments : List Argument := [
  { key := "<PROCFILE>", effect := .takes .path, required := true },
  { key := "--config", letter := some 'c', names := ["config"], effect := .takes .path },
  { key := "--appname", letter := some 'n', names := ["appname"], effect := .takes .text,
    required := true },
  { key := "--in-place", letter := some 'i', names := ["in-place"], effect := .mark },
  helpOption, versionOption]

/-- What the values ask for. -/
def ofGiven (g : Given) : Convert where
  procfile := g.value "<PROCFILE>"
  settings := g.value? "--config"
  appName := g.value "--appname"
  inPlace := g.isOn "--in-place"

/-- What the words ask for. -/
def ofWords (words : List String) : Except Refusal Convert :=
  (CommandLine.read arguments [] words).map ofGiven

end Convert

end ProcUnits.CommandLine
