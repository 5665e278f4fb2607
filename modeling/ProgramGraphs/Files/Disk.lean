import ProgramGraphs.Files.Basic

/-!
# A model of a file system

A disk holds directories and files at locations.  A path is followed from the root or
from the working directory, one part at a time, and every part but the last must lead to
a directory.
-/

namespace ProgramGraphs

/-- A place on a disk: names of directories, the innermost first. -/
abbrev Location := List (List Char)

/-- A file system as a value. -/
structure Disk where
  /-- What is at which location, the latest first.  The root is not listed. -/
  entries : List (Location × Entry) := []
  /-- The location of the working directory. -/
  home : Location := []

namespace Disk

/-- The length of the longest name, in bytes. -/
def nameLimit : Nat := 255

/-- Paths are shorter than this, in bytes. -/
def pathLimit : Nat := 4096

/-- What is at a location. -/
def entry? (disk : Disk) (location : Location) : Option Entry :=
  if location.isEmpty then some .directory else disk.entries.lookup location

/-- Puts something at a location. -/
def put (disk : Disk) (location : Location) (entry : Entry) : Disk :=
  { disk with entries := (location, entry) :: disk.entries.filter fun other => other.1 != location }

/-- Follows the parts of a path from a location.  The last part need not lead anywhere. -/
def follow (disk : Disk) : Location → List (List Char) → Except SystemError Location
  | here, [] => .ok here
  | here, part :: rest =>
    match disk.entry? here with
    | none => .error .notFound
    | some (.file _) => .error .notADirectory
    | some .directory =>
      if part = ['.'] then follow disk here rest
      else if part = ['.', '.'] then follow disk here.tail rest
      else if nameLimit < (String.ofList part).utf8ByteSize then .error .nameTooLong
      else follow disk (part :: here) rest

/-- The location that a path leads to, whether or not something is there. -/
def locate (disk : Disk) (path : String) : Except SystemError Location :=
  if path.toList.contains '\x00' then .error .zeroInName
  else if path.isEmpty then .error .notFound
  else if pathLimit ≤ path.utf8ByteSize then .error .nameTooLong
  else
    disk.follow (if Path.isAbsolute path then [] else disk.home)
      ((Path.parts path.toList).filter fun part => !part.isEmpty)

/-- Whether a path may lead only to a directory. -/
def wantsDirectory (path : String) : Bool := path.toList.getLast? == some '/'

/-- What a path leads to. -/
def find (disk : Disk) (path : String) : Except SystemError Entry := do
  let location ← disk.locate path
  match disk.entry? location with
  | none => .error .notFound
  | some (.file content) =>
    if wantsDirectory path then .error .notADirectory else return .file content
  | some .directory => return .directory

/-- The disk after a file is written. -/
def write (disk : Disk) (path text : String) : Except SystemError Disk := do
  let location ← disk.locate path
  if wantsDirectory path then .error .isADirectory
  else
    match disk.entry? location with
    | some .directory => .error .isADirectory
    | _ => return disk.put location (.file text.toUTF8)

/-- The disk after a directory is made. -/
def makeDirectory (disk : Disk) (path : String) : Except SystemError Disk := do
  let location ← disk.locate path
  match disk.entry? location with
  | some _ => .error .exists
  | none => return disk.put location .directory

/-- Whether a path leads to anything. -/
def isThere (disk : Disk) (path : String) : Bool := (disk.find path).isOk

/-- Whether a path leads to a directory. -/
def isDirectory (disk : Disk) (path : String) : Bool :=
  match disk.find path with
  | .ok .directory => true
  | _ => false

/-- The absolute path of a location. -/
def pathOf (location : Location) : String :=
  if location.isEmpty then "/"
  else String.ofList (location.reverse.flatMap fun name => '/' :: name)

/-- Applies a change to the disk, unless it fails. -/
def change (attempt : Disk → Except SystemError Disk) : StateM Disk (Except SystemError Unit) :=
  fun disk =>
    match attempt disk with
    | .ok changed => (.ok (), changed)
    | .error error => (.error error, disk)

instance : Files (StateM Disk) where
  openPath path := fun disk => (disk.find path, disk)
  write path text := change fun disk => disk.write path text
  makeDirectory path := change fun disk => disk.makeDirectory path
  isThere path := fun disk => (disk.isThere path, disk)
  isDirectory path := fun disk => (disk.isDirectory path, disk)
  workingDirectory := fun disk => (pathOf disk.home, disk)

end Disk

end ProgramGraphs
