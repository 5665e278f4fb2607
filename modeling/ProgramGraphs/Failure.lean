import ProgramGraphs.Files.Error
import ProgramGraphs.Json.Decode
import ProgramGraphs.Render.Format
import ProgramGraphs.Snapshot.References

/-!
# Failures

Why an export, or a step on the way to it, fails, and how each failure is reported.
-/

namespace ProgramGraphs

open Json (ReadError)
open Reading (Mismatch)

/-- What is wrong with a configuration. -/
inductive ConfigProblem where
  /-- There is no file at the given path. -/
  | missing (path : String)
  /-- A file is there that must not be overwritten. -/
  | alreadyThere (path : String)
  /-- The file keeps to no TOML grammar. -/
  | malformed
  /-- The file holds something that is no configuration. -/
  | mismatch (reason : Mismatch)
  deriving Repr, Inhabited

/-- What is wrong with a snapshot beside the text of its document. -/
inductive SnapshotProblem where
  /-- Its file cannot be opened. -/
  | cannotOpen (path : String) (error : SystemError)
  /-- It refers to something that is not there. -/
  | dangling (reference : Snapshot.Reference)
  /-- It has no dependency graph. -/
  | noDependencyGraph (path : String)
  deriving Repr, Inhabited

/-- What is wrong with the document of a snapshot. -/
inductive DocumentProblem where
  /-- Its text does not hold a snapshot. -/
  | text (error : ReadError)
  /-- Its file cannot be read. -/
  | unreadable (error : SystemError)
  deriving Repr, Inhabited

/-- Why an operation fails. -/
inductive Failure where
  | configuration (problem : ConfigProblem)
  | snapshot (problem : SnapshotProblem)
  | document (problem : DocumentProblem)
  | format (problem : FormatProblem)
  /-- A file or directory of the output cannot be written. -/
  | write (path : String) (error : SystemError)
  /-- A configuration file cannot be read or written. -/
  | files (error : SystemError)
  /-- The directory of a new configuration file cannot be made. -/
  | directory (error : SystemError)
  deriving Repr

/-! ## Reports -/

/-- The report of a problem with a configuration. -/
def ConfigProblem.message : ConfigProblem → String
  | .missing path => "configuration file " ++ path ++ " not found"
  | .alreadyThere path => path ++ " already exists (use --force to overwrite)"
  | .malformed => "the text is not TOML"
  | .mismatch reason => reason.message .plain

/-- The report of a problem with a snapshot. -/
def SnapshotProblem.message : SnapshotProblem → String
  | .cannotOpen path error => "cannot open snapshot " ++ path ++ ": " ++ error.message
  | .dangling reference => reference.message
  | .noDependencyGraph path => "snapshot " ++ path ++ " has no dependency graph"

/-- The report of a text that does not hold the wanted value. -/
def Json.ReadError.message : ReadError → String
  | .defect .truncated => "the text ends inside a value"
  | .defect .malformed => "the text is not JSON"
  | .mismatch reason => reason.message .json

/-- The report of a problem with a document. -/
def DocumentProblem.message : DocumentProblem → String
  | .text error => error.message
  | .unreadable error => error.message

/-- What is unsupported, in a report. -/
def FormatProblem.subject : FormatProblem → String
  | .unsupported token => token
  | .noExtension path => path ++ " has no file extension"

/-- The report of a missing format. -/
def FormatProblem.message (problem : FormatProblem) : String :=
  "Unsupported format: " ++ problem.subject ++ " (expected one of " ++
    ", ".intercalate (Format.all.map Format.extension) ++ ")"

/-- The report of a failure. -/
def Failure.message : Failure → String
  | .configuration problem => "Configuration error: " ++ problem.message
  | .snapshot problem => "Analysis error: " ++ problem.message
  | .document problem => "Serialization error: " ++ problem.message
  | .format problem => problem.message
  | .write path error => "Failed to write " ++ path ++ ": " ++ error.message
  | .files error => "IO error: " ++ error.message
  | .directory error => error.message

end ProgramGraphs
