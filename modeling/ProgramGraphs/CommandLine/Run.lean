import ProgramGraphs.CommandLine.Parse
import ProgramGraphs.Config.File
import ProgramGraphs.Export.Run

/-!
# Carrying out command lines

The configuration is read first, whatever the command is.
-/

namespace ProgramGraphs.CommandLine

variable {m : Type → Type} [Monad m] [Files m]

/-- The choice among named values that an option asks for. -/
def chosen {α : Type} (name : α → String) (values : List α) (wanted : Option String) : Option α :=
  wanted.bind fun wanted => values.find? fun value => name value == wanted

/-- The request that the options of an export make. -/
def request (options : Progress) : Export.Request :=
  { input := (options.value? .input).getD ""
    outputDirectory := (options.value? .outputDirectory).getD ""
    fileName := options.value? .fileName
    format := chosen Format.extension Format.all (options.value? .format)
    backEdges := chosen BackEdgePolicy.name BackEdgePolicy.all (options.value? .backEdges)
    edgeLabels := chosen LabelStrategy.name LabelStrategy.all (options.value? .edgeLabels) }

/-- Carries out a command line. -/
def Invocation.run (invocation : Invocation) : ExceptT Failure m Unit := do
  let config ← Config.find invocation.config
  match invocation.command with
  | .exportGraphs selection =>
    let _ ← Export.run config (request invocation.options) selection
  | .setUp =>
    let _ ← Config.writeDefaults (invocation.options.value? .directory)
      (invocation.options.has .force)

end ProgramGraphs.CommandLine
