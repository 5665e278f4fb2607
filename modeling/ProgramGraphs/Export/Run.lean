import ProgramGraphs.Export.Request
import ProgramGraphs.Files.Basic
import ProgramGraphs.Json.Bytes
import ProgramGraphs.Record.Graphs
import ProgramGraphs.Render.Document
import ProgramGraphs.Snapshot.Read

/-!
# Exports

An export settles the format and the file names, reads the snapshot, makes the output
directory, and writes one file for each graph.  Nothing is written before the snapshot is
known to be good, and the text of a file is complete before the file is opened.
-/

namespace ProgramGraphs

variable {m : Type → Type} [Monad m] [Files m]

/-- Reads the snapshot at a path. -/
def Snapshot.load (path : String) : ExceptT Failure m Snapshot.View := do
  match ← (Files.openPath path : m _) with
  | .error error => throw (.snapshot (.cannotOpen path error))
  | .ok entry =>
    match Files.content entry with
    | .error error => throw (.document (.unreadable error))
    | .ok bytes => Snapshot.ofDocument (Json.Document.ofBytes bytes)

namespace Export

/-- Writes a graph to a path, and gives the path. -/
def writeGraph (graph : GraphRecord) (format : Format) (path : String) :
    ExceptT Failure m String := do
  match ← (Files.write path (graph.render format) : m _) with
  | .error error => throw (.write path error)
  | .ok () => return path

/-- The class graph of a snapshot under a configuration. -/
def classGraph (config : Config) (view : Snapshot.View) : ClassGraph :=
  view.callGraph.reduce config.scope.toLoaderScope.toScope

/-- The canonical graph of a snapshot under a configuration and a request. -/
def canonicalGraph (config : Config) (request : Request) (view : Snapshot.View) :
    CanonicalGraph :=
  let graph := view.dependencyGraph
  graph.canonicalize config.scope.toLoaderScope.toScope
    (request.backEdges.getD config.canonicalize.backEdges)
    (graph.labeler (request.edgeLabels.getD config.canonicalize.edgeLabels))

/-- Writes the class graph where it is selected, and gives the written paths. -/
def writeClassGraph (config : Config) (request : Request) (selection : Selection)
    (target : Target) (view : Snapshot.View) : ExceptT Failure m (List String) :=
  if selection.includesCallGraph then do
    let path ← writeGraph (classGraph config view).toRecord target.format
      (request.outputPath config.output.callGraphPrefix target.fileName)
    return [path]
  else return []

/-- Writes the canonical graph where it is selected and there is one, and gives the written
paths. -/
def writeCanonicalGraph (config : Config) (request : Request) (selection : Selection)
    (target : Target) (view : Snapshot.View) : ExceptT Failure m (List String) :=
  if selection.includesDependencyGraph && view.snapshot.dependencyGraph.isSome then do
    let path ← writeGraph (canonicalGraph config request view).toRecord target.format
      (request.outputPath config.output.sdgPrefix target.fileName)
    return [path]
  else return []

/-- Makes the output directory. -/
def makeOutputDirectory (request : Request) : ExceptT Failure m Unit := do
  match ← (Files.makeDirectories request.outputDirectory : m _) with
  | .error error => throw (.write request.outputDirectory error)
  | .ok () => return ()

/-- Exports the selected graphs, and gives the paths of the written files in order. -/
def run (config : Config) (request : Request) (selection : Selection) :
    ExceptT Failure m (List String) := do
  match request.target config with
  | .error problem => throw (.format problem)
  | .ok target =>
    let view ← Snapshot.load request.input
    if selection = .dependencyGraph ∧ view.snapshot.dependencyGraph = none then
      throw (.snapshot (.noDependencyGraph request.input))
    makeOutputDirectory request
    let first ← writeClassGraph config request selection target view
    let second ← writeCanonicalGraph config request selection target view
    return first ++ second

end Export

end ProgramGraphs
