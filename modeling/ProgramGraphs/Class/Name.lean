/-!
# Names of classes

A class descriptor is a marker character, the parts of the class's name joined by
`/`, and an optional `;`.  This file reads the two names under which a class is
exported off its descriptor: the *qualified* name, with the parts joined by `.`,
and the *short* name, the last part with every `$` turned into `_`.

The first character of a descriptor is the marker whatever it is, so every string
has the two names.
-/

namespace ProgramGraphs

/-- The two names under which a class is exported. -/
structure ClassName where
  /-- All parts of the name, joined by `.`; classes with equal qualified names are
  one class. -/
  qualified : String
  /-- The last part alone, for display. -/
  short : String
  deriving DecidableEq, Repr

namespace ClassName

/-- What a descriptor holds between its marker and its optional terminator.  Only one
`;` is a terminator. -/
def body (descriptor : List Char) : List Char :=
  let unmarked := descriptor.drop 1
  if unmarked.getLast? = some ';' then unmarked.dropLast else unmarked

/-- The separator of a descriptor becomes the separator of a qualified name. -/
def separatorToDot (c : Char) : Char := if c = '/' then '.' else c

/-- A nesting mark becomes a character that is plain in every output format. -/
def nestingToUnderscore (c : Char) : Char := if c = '$' then '_' else c

/-- Everything after the last `.`, or the whole text when there is none. -/
def lastPart (name : List Char) : List Char :=
  (name.reverse.takeWhile (· ≠ '.')).reverse

/-- The names of the class that a descriptor stands for. -/
def ofDescriptor (descriptor : String) : ClassName :=
  let qualified := (body descriptor.toList).map separatorToDot
  { qualified := String.ofList qualified
    short := String.ofList ((lastPart qualified).map nestingToUnderscore) }

end ClassName

end ProgramGraphs
