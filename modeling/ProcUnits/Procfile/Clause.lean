import ProcUnits.Text.Blank
import ProcUnits.Variables

/-!
Clauses: one command of a service as it is written, `env K=V … command >> log` (section 4.2 of the
specification).

Assignments may stand in front of the command, after the word `env` or without it, and a
redirection to a log file behind it. Blanks separate words and nothing else; whatever follows
the redirection's target is dropped.

* `Clause`, `Clause.scan`: the parts of a clause;
* `takeAssignments`, `takeBody`: the words before the command, and the command with its log.
  `takeAssignments_append` says that the former takes words from the front and keeps the rest.
-/

namespace ProcUnits.Procfile

/-- The parts of a clause. -/
structure Clause where
  /-- The words of the command, with single spaces between them. -/
  command : String
  log : Option String
  environment : Variables
  deriving DecidableEq, Repr

namespace Clause

/-- The assignment that a word is, if it is one: it has a name before its first `=`. -/
def assignment? (w : List Char) : Option (String × String) :=
  match Text.cutAt '=' w with
  | some ([], _) => none
  | some (k, v) => some (String.ofList k, String.ofList v)
  | none => none

/-- The assignments at the front, and the words after them. -/
def takeAssignments : List (List Char) → List (String × String) × List (List Char)
  | [] => ([], [])
  | w :: ws =>
    match assignment? w with
    | some a => (a :: (takeAssignments ws).1, (takeAssignments ws).2)
    | none => ([], w :: ws)

/-- What stands before `>>` names a descriptor and not a word of the command. -/
def isDescriptor (w : List Char) : Bool := w == ['&'] || w.all Char.isDigit

/-- The words of the command, and the target of the first redirection. -/
def takeBody : List (List Char) → List (List Char) × Option (List Char)
  | [] => ([], none)
  | w :: ws =>
    match Text.cutAtPair '>' w with
    | some (h, t) =>
      (if isDescriptor h then [] else [h], if t.isEmpty then ws.head? else some t)
    | none => (w :: (takeBody ws).1, (takeBody ws).2)

/-- The assignments and the other words. The word `env` announces assignments; without it a
first word with `=` in it does. -/
def split (ws : List (List Char)) : List (String × String) × List (List Char) :=
  match ws with
  | [] => ([], [])
  | w :: rest =>
    if w = ['e', 'n', 'v'] then takeAssignments rest
    else if '=' ∈ w then takeAssignments (w :: rest)
    else ([], w :: rest)

/-- The clause that the words make. -/
def ofWords (ws : List (List Char)) : Clause :=
  let (assignments, rest) := split ws
  let (body, log) := takeBody rest
  { command := String.ofList ([' '].intercalate body)
    log := log.map String.ofList
    environment := Variables.ofList assignments }

/-- The parts of a clause as it is written (section 4.2). -/
def scan (s : List Char) : Clause := ofWords (Text.words s)

/-- Only words at the front are taken. -/
theorem takeAssignments_append (ws : List (List Char)) :
    ∃ taken, ws = taken ++ (takeAssignments ws).2 := by
  induction ws with
  | nil => exact ⟨[], rfl⟩
  | cons w ws ih =>
    unfold takeAssignments
    split
    · obtain ⟨taken, h⟩ := ih
      exact ⟨w :: taken, congrArg (w :: ·) h⟩
    · exact ⟨[], rfl⟩

/-- Only the blanks between words count. -/
theorem scan_congr {s t : List Char} (h : Text.words s = Text.words t) : scan s = scan t := by
  rw [scan, scan, h]

end Clause

end ProcUnits.Procfile
