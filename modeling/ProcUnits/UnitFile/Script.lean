import ProcUnits.UnitFile.Instance
import ProcUnits.UnitFile.Template

/-!
The helper script of an instance: it prepares the environment and runs the commands of the service
one after the other (sections 4.6 and D of the specification).

* `mainStage`: the command with its environment and its log. It takes the place of the shell
  if nothing runs after it;
* `commandChain`: all commands, each run only if the one before it succeeded;
* `helper`: the whole script.
-/

namespace ProcUnits.UnitFile

open Template (Item)

/-- The environment in front of the command: the variables, and those of the file (section 4.6). -/
def environment (m : Application.Member) : String :=
  let o := m.options
  if o.areVariablesSet || o.isVariablesFileSet then
    "env " ++ (if o.areVariablesSet then o.environment.text ++ " " else "")
      ++ (match m.variablesPath? with
        | some p => "$(grep -Ev '^\\s*(#|$)' " ++ p ++ " 2>/dev/null | xargs) "
        | none => "")
  else ""

/-- The redirection to the service's own log. -/
def redirection (m : Application.Member) : String :=
  if m.options.isCustomLogEnabled then
    match m.logPath? with
    | some p => " &>>" ++ p
    | none => ""
  else ""

/-- The command with its environment and its log. -/
def mainStage (m : Application.Member) : String :=
  (if m.service.post.isNone then "exec " else "") ++ environment m ++ m.service.command
    ++ redirection m

/-- The stages of a service that are there. -/
def stages (m : Application.Member) : List String :=
  m.service.pre.toList ++ [mainStage m] ++ m.service.post.toList

/-- The commands of a service in one line (section D). -/
def commandChain (m : Application.Member) : String := " && ".intercalate (stages m)

/-- A comment that says what made a file. -/
def header (kind generator date : String) (a : Application) : String :=
  s!"# This {kind} generated {date} by init-exporter/{generator} for {a.name} application"

/-- The helper script (sections 4.6 and C.8). It changes to the directory of the service itself if
the init system does not. -/
def helper (generator date : String) (cdFirst : Bool) (i : Instance) : String :=
  Template.render
    [.line "#!/bin/bash",
      .block, .line (header "helper" generator date i.member.app),
      .block, .line "[[ -r /etc/profile.d/rbenv.sh ]] && source /etc/profile.d/rbenv.sh",
      .line "[[ -r /etc/profile.d/pyenv.sh ]] && source /etc/profile.d/pyenv.sh",
      .block,
      .line ((if cdFirst then "cd " ++ i.member.workingDir ++ " && " else "")
        ++ commandChain i.member)]

end ProcUnits.UnitFile
