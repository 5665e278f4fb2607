import ProgramGraphs.Config.Basic

/-!
# Requests for exports

A request names a snapshot and a directory, and may override what the configuration says.
The name of a file and the format are settled before anything is read: a name that is
given decides the format by its extension, unless a format is given too.
-/

namespace ProgramGraphs.Export

/-- What is to be exported, from where and to where. -/
structure Request where
  /-- The path of the snapshot. -/
  input : String
  /-- The directory that the files are written into. -/
  outputDirectory : String
  /-- The common name of the written files. -/
  fileName : Option String := none
  format : Option Format := none
  backEdges : Option BackEdgePolicy := none
  edgeLabels : Option LabelStrategy := none
  deriving DecidableEq, Repr, Inhabited

/-- Which graphs are exported. -/
inductive Selection where
  /-- Both graphs; a snapshot without a dependency graph gives the call graph alone. -/
  | both
  /-- The call graph alone. -/
  | callGraph
  /-- The dependency graph alone. -/
  | dependencyGraph
  deriving DecidableEq, Repr, Inhabited

namespace Selection

/-- Whether the call graph is exported. -/
def includesCallGraph : Selection → Bool
  | .both | .callGraph => true
  | .dependencyGraph => false

/-- Whether the dependency graph is exported. -/
def includesDependencyGraph : Selection → Bool
  | .both | .dependencyGraph => true
  | .callGraph => false

end Selection

/-- The format of the written files and their common name. -/
structure Target where
  format : Format
  fileName : String
  deriving DecidableEq, Repr

namespace Request

/-- The format and the common name that a request asks for. -/
def target (request : Request) (config : Config) : Except FormatProblem Target :=
  match request.fileName, request.format with
  | some name, some format => .ok ⟨format, name⟩
  | some name, none => (fun format => ⟨format, name⟩) <$> Format.ofPath name
  | none, format =>
    let format := format.getD config.output.format
    .ok ⟨format, config.output.fileStem ++ "." ++ format.extension⟩

/-- The path of a written file, whose name starts with a prefix. -/
def outputPath (request : Request) (lead fileName : String) : String :=
  Path.join request.outputDirectory (lead ++ fileName)

end Request

end ProgramGraphs.Export
