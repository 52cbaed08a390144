/-!
The ways in which the operating system refuses an operation on files or programs, with the texts and
numbers that it reports them under (the last kind of errors in section 7 of the specification).
-/

namespace ProcUnits.Host

/-- A refused operation. -/
inductive OsError where
  | notFound
  | permissionDenied
  | exists
  | notDirectory
  | isDirectory
  | nameTooLong
  /-- A path holds the character that ends texts for the system. -/
  | nul
  deriving DecidableEq, Repr, Inhabited

/-- The text of an error. -/
def OsError.message : OsError → String
  | .notFound => "No such file or directory (os error 2)"
  | .permissionDenied => "Permission denied (os error 13)"
  | .exists => "File exists (os error 17)"
  | .notDirectory => "Not a directory (os error 20)"
  | .isDirectory => "Is a directory (os error 21)"
  | .nameTooLong => "File name too long (os error 36)"
  | .nul => "file name contained an unexpected NUL byte"

end ProcUnits.Host
