/-!
# Paths

A path is a text whose parts are separated by `/`.  Empty parts and `.` parts say
nothing, so trailing ones do not change which file a path names.
-/

namespace ProgramGraphs.Path

/-- The parts of a path between its separators, empty ones included. -/
def parts : List Char → List (List Char)
  | [] => [[]]
  | c :: rest =>
    if c = '/' then [] :: parts rest
    else match parts rest with
      | [] => [[c]]
      | part :: others => (c :: part) :: others

/-- Whether a part says where to go. -/
def meaningful (part : List Char) : Bool := part != [] && part != ['.']

/-- The parts that say where to go. -/
def components (path : String) : List (List Char) :=
  (parts path.toList).filter meaningful

/-- Whether a path starts at the root. -/
def isAbsolute (path : String) : Bool := path.toList.head? == some '/'

/-- The name of the file that a path leads to.  A path that ends by going up, or goes
nowhere, has none. -/
def fileName? (path : String) : Option (List Char) :=
  (components path).getLast?.filter fun part => part != ['.', '.']

/-- The text after the last dot of a name; a name whose only dot comes first has none. -/
def extensionOfName? (name : List Char) : Option (List Char) :=
  let reversed := name.reverse
  match reversed.dropWhile (· ≠ '.') with
  | _ :: _ :: _ => some (reversed.takeWhile (· ≠ '.')).reverse
  | _ => none

/-- The extension of the file that a path leads to. -/
def extension? (path : String) : Option String :=
  ((fileName? path).bind extensionOfName?).map String.ofList

/-- A path continued by another one; an absolute continuation stands on its own. -/
def join (base next : String) : String :=
  if isAbsolute next then next
  else if base.isEmpty || base.toList.getLast? == some '/' then base ++ next
  else base ++ "/" ++ next

/-- Drops what says nothing from the end of a path, in reverse: separators and single
dots that stand alone between separators. -/
def trimEnd : List Char → List Char
  | '/' :: rest => trimEnd rest
  | ['.'] => ['.']
  | '.' :: '/' :: rest => trimEnd rest
  | reversed => reversed

/-- The path without its last component; nothing for a path that has no component. -/
def parent? (path : String) : Option String :=
  let trimmed := trimEnd path.toList.reverse
  if trimmed.isEmpty then none
  else
    let outer := trimmed.dropWhile (· ≠ '/')
    let shortened := trimEnd outer
    if shortened.isEmpty && !outer.isEmpty then some "/"
    else some (String.ofList shortened.reverse)

/-- A path, its parent, the parent's parent, and so on, at most as many as the bound says. -/
def ancestorsWithin : (bound : Nat) → String → List String
  | 0, path => [path]
  | bound + 1, path =>
    path :: match parent? path with
      | some outer => ancestorsWithin bound outer
      | none => []

/-- A path and all paths that lead to it, the longest first. -/
def ancestors (path : String) : List String := ancestorsWithin path.length path

end ProgramGraphs.Path
