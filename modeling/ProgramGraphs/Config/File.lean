import ProgramGraphs.Config.Toml
import ProgramGraphs.Files.Basic

/-!
# Finding, reading and writing configuration files

A configuration file that is named must be there.  Where none is named, the working
directory may hold one under one of two names; where it holds neither, the defaults
apply.
-/

namespace ProgramGraphs.Config

variable {m : Type → Type} [Monad m] [Files m]

/-- The name under which a new configuration file is written. -/
def fileName : String := "code2graph.toml"

/-- The names under which a configuration file is looked for, the preferred one first. -/
def candidates : List String := [fileName, "." ++ fileName]

/-- Reads the configuration file at a path. -/
def load (path : String) : ExceptT Failure m Config := do
  match ← (Files.readText path : m _) with
  | .error error => throw (.files error)
  | .ok text =>
    match ofText text with
    | .error problem => throw (.configuration problem)
    | .ok config => return config

/-- Reads the first of some files that is there; the defaults where none is. -/
def loadFirst : List String → ExceptT Failure m Config
  | [] => return {}
  | path :: others => do
    if ← (Files.isThere path : m _) then load path else loadFirst others

/-- Reads the configuration file that is named, or else looks for one. -/
def find : Option String → ExceptT Failure m Config
  | some path => do
    if ← (Files.isThere path : m _) then load path
    else throw (.configuration (.missing path))
  | none => loadFirst candidates

/-- Writes a configuration file. -/
def save (config : Config) (path : String) : ExceptT Failure m Unit := do
  match ← (Files.write path config.toText : m _) with
  | .error error => throw (.files error)
  | .ok () => return ()

/-- Writes a configuration file with the defaults into a directory, or into the working
directory, and gives its path.  A file that is there is overwritten only by `force`. -/
def writeDefaults (directory : Option String) (force : Bool) : ExceptT Failure m String := do
  let directory ← match directory with
    | some directory => pure directory
    | none => (Files.workingDirectory : m _)
  let path := Path.join directory fileName
  if (← (Files.isThere path : m _)) && !force then
    throw (.configuration (.alreadyThere path))
  match ← (Files.makeDirectories directory : m _) with
  | .error error => throw (.directory error)
  | .ok () =>
    save {} path
    return path

end ProgramGraphs.Config
