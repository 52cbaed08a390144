import ProcUnits.Application
import ProcUnits.Procfile.Clause
import ProcUnits.Procfile.Error

/-!
The legacy format (section 4.2 of the specification): a service on each line,
`label: cd DIR && pre && command && post`, of which only the label and the command have to be there.
Empty lines and lines that start with `#` are left out.

* `labelled?`: the label of a line and the text after it;
* `changeDir?`: the directory of a piece that changes it;
* `serviceOfLine`: the service of a line, or what is wrong with the line;
* `readLegacy`: the services of a text.
-/

namespace ProcUnits.Procfile

/-- The label of a line and what follows it. The label is not empty and holds neither blank
nor colon, and something that is not blank follows the colon. -/
def labelled? (line : List Char) : Option (List Char × List Char) :=
  match Text.cutAt ':' line with
  | none => none
  | some (label, rest) =>
    let fragment := Text.trimStart rest
    if label.isEmpty || label.any Text.isBlank || fragment.isEmpty then none
    else some (label, fragment)

/-- The directory that a piece changes to, if it is one that changes it (section 4.2). -/
def changeDir? : List Char → Option (List Char)
  | ['c', 'd'] => some []
  | 'c' :: 'd' :: ' ' :: r => some (Text.trim r)
  | _ => none

/-- The directory at the front of the pieces, if there is one, and the other pieces. -/
def takeChangeDir : List (List Char) → Option (List Char) × List (List Char)
  | [] => (none, [])
  | p :: ps =>
    match changeDir? p with
    | some dir => (some dir, ps)
    | none => (none, p :: ps)

/-- The commands that pieces stand for: before, main and after (section 4.2). -/
def stages? : List (List Char) → Option (Option (List Char) × List Char × Option (List Char))
  | [main] => some (none, main, none)
  | [pre, main] => some (some pre, main, none)
  | [pre, main, post] => some (some pre, main, some post)
  | _ => none

/-- The service that a line declares (section 4.2). -/
def serviceOfLine (line : List Char) : Except Error Service :=
  match labelled? line with
  | none => .error (.badLine (String.ofList line))
  | some (label, fragment) =>
    let name := String.ofList label
    let (dir, pieces) := takeChangeDir ((Text.splitAtPair '&' fragment).map Text.trim)
    if pieces.isEmpty then .error (.onlyChangeDir name)
    else if pieces.any List.isEmpty then .error (.emptyCommand name (String.ofList fragment))
    else
      match stages? pieces with
      | none => .error (.tooManyCommands name)
      | some (pre, main, post) =>
        let clause := Clause.scan main
        .ok
          { name
            command := clause.command
            pre := pre.map fun p => (Clause.scan p).command
            post := post.map fun p => (Clause.scan p).command
            options :=
              { workingDir := (dir.filter (· ≠ [])).map String.ofList
                logFile := clause.log
                environment := clause.environment } }

/-- The line declares nothing. -/
def isSkipped (line : List Char) : Bool := line.isEmpty || line.head? == some '#'

/-- The lines that declare services, without the blanks at their ends. -/
def serviceLines (text : List Char) : List (List Char) :=
  ((Text.lines text).map Text.trim).filter fun l => !isSkipped l

/-- The services that lines declare, up to the first one that is wrong. -/
def servicesOfLines : List (List Char) → Except Error (List Service)
  | [] => .ok []
  | l :: ls => do
    let s ← serviceOfLine l
    let ss ← servicesOfLines ls
    return s :: ss

/-- The services of a text (section 4.2). -/
def readLegacy (text : List Char) : Except Error (List Service) :=
  servicesOfLines (serviceLines text)

end ProcUnits.Procfile
