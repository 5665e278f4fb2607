/-!
# Errors of the file system
-/

namespace ProgramGraphs

/-- Why the file system refuses an operation. -/
inductive SystemError where
  /-- Nothing is there. -/
  | notFound
  /-- Something is there already. -/
  | exists
  /-- A file stands where a directory is needed. -/
  | notADirectory
  /-- A directory stands where a file is needed. -/
  | isADirectory
  /-- A name or a path is too long. -/
  | nameTooLong
  /-- A path contains the character with number zero. -/
  | zeroInName
  /-- A file that should hold text does not. -/
  | notText
  /-- No part of a directory's path can be created. -/
  | noTree
  /-- Any other reason, as the system words it. -/
  | other (description : String)
  deriving DecidableEq, Repr, Inhabited

namespace SystemError

/-- The report of an error that the system gives a number. -/
def numbered (description : String) (number : Nat) : String :=
  description ++ " (os error " ++ toString number ++ ")"

/-- The report of an error. -/
def message : SystemError → String
  | .notFound => numbered "No such file or directory" 2
  | .exists => numbered "File exists" 17
  | .notADirectory => numbered "Not a directory" 20
  | .isADirectory => numbered "Is a directory" 21
  | .nameTooLong => numbered "File name too long" 36
  | .zeroInName => "file name contained an unexpected NUL byte"
  | .notText => "stream did not contain valid UTF-8"
  | .noTree => "failed to create whole tree"
  | .other description => description

end SystemError

end ProgramGraphs
