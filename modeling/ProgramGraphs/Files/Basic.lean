import ProgramGraphs.Files.Error
import ProgramGraphs.Path

/-!
# What the program asks of a file system

The program reads whole files, writes whole files, and makes directories.  Everything it
does with files is a program over these few operations, which a real file system or a
model of one can carry out.
-/

namespace ProgramGraphs

/-- What a path leads to. -/
inductive Entry where
  | directory
  /-- A file with its bytes. -/
  | file (content : ByteArray)

/-- Two files are the same entry when they hold the same bytes. -/
instance : DecidableEq Entry
  | .directory, .directory => isTrue rfl
  | .directory, .file _ => isFalse (by simp)
  | .file _, .directory => isFalse (by simp)
  | .file left, .file right =>
    decidable_of_iff (left.data = right.data) (by rw [Entry.file.injEq, ByteArray.ext_iff])

/-- The operations of a file system. -/
class Files (m : Type → Type) where
  /-- Opens what a path leads to. -/
  openPath : String → m (Except SystemError Entry)
  /-- Makes a file hold a text, whatever it held before. -/
  write : String → String → m (Except SystemError Unit)
  /-- Makes one directory. -/
  makeDirectory : String → m (Except SystemError Unit)
  /-- Whether a path leads to anything. -/
  isThere : String → m Bool
  /-- Whether a path leads to a directory. -/
  isDirectory : String → m Bool
  /-- The path of the working directory. -/
  workingDirectory : m String

namespace Files

/-- The bytes of an entry; a directory has none. -/
def content : Entry → Except SystemError ByteArray
  | .directory => .error .isADirectory
  | .file content => .ok content

variable {m : Type → Type} [Monad m] [Files m]

/-- The bytes of a file. -/
def readBytes (path : String) : m (Except SystemError ByteArray) := do
  match ← openPath path with
  | .ok opened => return content opened
  | .error error => return .error error

/-- The text of a file. -/
def readText (path : String) : m (Except SystemError String) := do
  match ← readBytes path with
  | .ok bytes =>
    match String.fromUTF8? bytes with
    | some text => return .ok text
    | none => return .error .notText
  | .error error => return .error error

/-- Makes the first of some directories, and before it the next one where that is missing.
The empty path is the working directory. -/
def makeFirst : List String → m (Except SystemError Unit)
  | [] => return .error .noTree
  | path :: outer => do
    if path.isEmpty then return .ok ()
    match ← makeDirectory path with
    | .ok () => return .ok ()
    | .error .notFound =>
      match ← makeFirst outer with
      | .ok () => settle path (← makeDirectory path)
      | .error error => return .error error
    | .error error => settle path (.error error)
where
  /-- A directory that is there need not be made. -/
  settle (path : String) : Except SystemError Unit → m (Except SystemError Unit)
    | .ok () => return .ok ()
    | .error error => return if ← isDirectory path then .ok () else .error error

/-- Makes a directory and all directories that lead to it. -/
def makeDirectories (path : String) : m (Except SystemError Unit) := makeFirst (Path.ancestors path)

end Files

end ProgramGraphs
