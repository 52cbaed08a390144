/-!
Commands that control the host's init system, and how they end: the facility for external programs
of section 6 of the specification.
-/

namespace ProcUnits.Host

/-- A program with its arguments. -/
structure Command where
  program : String
  args : List String
  deriving DecidableEq, Repr

/-- The program and the arguments with spaces between them. -/
def Command.text (c : Command) : String := " ".intercalate (c.program :: c.args)

/-- What a finished command leaves. -/
structure Outcome where
  /-- The exit code, or -1 if a signal ended the program. -/
  status : Int := 0
  stdout : String := ""
  stderr : String := ""
  deriving DecidableEq, Repr, Inhabited

/-- The command did its work. -/
def Outcome.isSuccess (o : Outcome) : Bool := o.status == 0

/-- How a command ends. -/
inductive Reply where
  | finished (outcome : Outcome)
  /-- The program could not be started. -/
  | refused (reason : String)
  deriving DecidableEq, Repr, Inhabited

end ProcUnits.Host
