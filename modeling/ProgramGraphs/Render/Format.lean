import ProgramGraphs.Path

/-!
# Output formats

A format is named by a token, which is also the extension of its files.  Letter case
does not matter in a token.
-/

namespace ProgramGraphs

/-- An output format. -/
inductive Format where
  | json
  | graphMl
  | dot
  deriving DecidableEq, Repr, Inhabited

/-- Why no output format is known. -/
inductive FormatProblem where
  /-- The token names no format. -/
  | unsupported (token : String)
  /-- The path has no extension. -/
  | noExtension (path : String)
  deriving DecidableEq, Repr

namespace Format

/-- The extension of files in a format. -/
def extension : Format → String
  | .json => "json"
  | .graphMl => "graphml"
  | .dot => "dot"

/-- All formats. -/
def all : List Format := [.json, .graphMl, .dot]

/-- The format that a token names. -/
def ofToken (token : String) : Except FormatProblem Format :=
  match all.find? fun format => token.toLower == format.extension with
  | some format => .ok format
  | none => .error (.unsupported token)

/-- The format that the extension of a path names. -/
def ofPath (path : String) : Except FormatProblem Format :=
  match Path.extension? path with
  | some extension => ofToken extension
  | none => .error (.noExtension path)

end Format

end ProgramGraphs
