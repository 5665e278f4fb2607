import ProgramGraphs.Json.Reader

/-!
# JSON documents in files

The bytes of a file are read as characters.  A byte at which no character starts stands
for itself, so that a document is read up to the place where it goes wrong.
-/

namespace ProgramGraphs.Json

namespace Symbol

/-- The symbols of some bytes from a place on, after those found before, the last of them
first. -/
def decode (bytes : ByteArray) (found : List Symbol) (start : Nat) : List Symbol :=
  if inside : start < bytes.size then
    match bytes.utf8DecodeChar? start with
    | some c => decode bytes (.char c :: found) (start + c.utf8Size)
    | none => decode bytes (.byte bytes[start] :: found) (start + 1)
  else found.reverse
termination_by bytes.size - start
decreasing_by
  · have := c.utf8Size_pos
    omega
  · omega

/-- The symbols of some bytes. -/
def ofBytes (bytes : ByteArray) : List Symbol := decode bytes [] 0

end Symbol

/-- The document that a file holds. -/
def Document.ofBytes (bytes : ByteArray) : Document := Document.ofSymbols (Symbol.ofBytes bytes)

end ProgramGraphs.Json
