import ProgramGraphs.Json.Reader
import ProgramGraphs.Json.Value
import ProgramGraphs.Reading.Mismatch

/-!
# Decoding JSON documents

A decoder turns a node of a document into a value of some type, and reports the first
problem in the order of the document: a defect of the text, or a mismatch between what
stands there and what is wanted.  A value of the wrong kind is read first, so a defect
inside it comes before the mismatch; of lists and objects only the kind matters.
-/

namespace ProgramGraphs.Json

open Reading (Found Mismatch)

/-- Why a text does not hold the wanted value. -/
inductive ReadError where
  /-- The text is no JSON document. -/
  | defect (defect : Defect)
  /-- The document holds something else. -/
  | mismatch (mismatch : Mismatch)
  deriving Repr, Inhabited

/-- A way to take a value out of a document. -/
abbrev Decoder (α : Type) := Node → Except ReadError α

namespace Decode

/-- What a well-formed node is reported as. -/
def found? : Node → Option Found
  | .null => some .null
  | .bool value => some (.bool value)
  | .integer value => some (.integer value)
  | .float value => some (.float value)
  | .string text => some (.string text)
  | .list _ => some .sequence
  | .object _ => some .map
  | .valueless | .stopped _ _ => none

/-- The report of a node that is not of the expected kind. -/
def wrongType {α : Type} (expected : String) (node : Node) : Except ReadError α :=
  match node with
  | .stopped _ stop => .error (.defect stop.read)
  | .valueless => .error (.defect .malformed)
  | _ => .error (.mismatch (.wrongType ((found? node).getD .null) expected))

/-- The report of an integer that is out of range. -/
def wrongInteger {α : Type} (expected : String) (value : Int) : Except ReadError α :=
  .error (.mismatch (.wrongValue (.integer value) expected))

/-! ## Scalars -/

/-- A text. -/
def string : Decoder String
  | .string text => .ok text
  | node => wrongType "a string" node

/-- A truth value. -/
def bool : Decoder Bool
  | .bool value => .ok value
  | node => wrongType "a boolean" node

/-- An unsigned 64-bit word. -/
def word64 : Decoder UInt64
  | .integer value =>
    if 0 ≤ value ∧ value < 0x10000000000000000 then .ok (UInt64.ofNat value.toNat)
    else wrongInteger "usize" value
  | node => wrongType "usize" node

/-- An unsigned 32-bit word. -/
def word32 : Decoder UInt32
  | .integer value =>
    if 0 ≤ value ∧ value < 0x100000000 then .ok (UInt32.ofNat value.toNat)
    else wrongInteger "u32" value
  | node => wrongType "u32" node

/-- A number that is an unsigned 64-bit word. -/
def natural : Decoder Nat := fun node => (·.toNat) <$> word64 node

/-- A signed 64-bit integer. -/
def integer64 : Decoder Int
  | .integer value => if value < 0x8000000000000000 then .ok value else wrongInteger "i64" value
  | node => wrongType "i64" node

/-- A double; whole numbers count. -/
def float : Decoder Float
  | .float value => .ok value
  | .integer value => .ok (Float.ofInt value)
  | node => wrongType "f64" node

/-- A value that may be `null`. -/
def optional {α : Type} (decode : Decoder α) : Decoder (Option α)
  | .null => .ok none
  | node => some <$> decode node

/-! ## Lists -/

/-- The decoded items of a list. -/
def items {α : Type} (decode : Decoder α) : Items → Except ReadError (List α)
  | .close => .ok []
  | .stopped stop => .error (.defect stop.read)
  | .item node rest => do
    let value ← decode node
    let values ← items decode rest
    return value :: values

/-- A list of any length. -/
def list {α : Type} (decode : Decoder α) : Decoder (List α)
  | .list nodes => items decode nodes
  | node => wrongType "a sequence" node

/-- The end of a list that holds all that is wanted.  A further item is malformed,
whatever it is. -/
def listEnd : Items → Except ReadError Unit
  | .close => .ok ()
  | .stopped stop => .error (.defect stop.read)
  | .item _ _ => .error (.defect .malformed)

/-- One item of a list that has a fixed length. -/
def nextItem {α : Type} (decode : Decoder α) (index : Nat) (expected : String) :
    Items → Except ReadError (α × Items)
  | .item node rest => do
    let value ← decode node
    return (value, rest)
  | .close => .error (.mismatch (.wrongLength index expected))
  | .stopped stop => .error (.defect stop.read)

/-- A list of two items. -/
def pair {α : Type} (decode : Decoder α) : Decoder (α × α)
  | .list nodes => do
    let (first, rest) ← nextItem decode 0 "an array of length 2" nodes
    let (second, rest) ← nextItem decode 1 "an array of length 2" rest
    listEnd rest
    return (first, second)
  | node => wrongType "an array of length 2" node

/-! ## Documents -/

/-- Decodes a whole document, which nothing may follow. -/
def document {α : Type} (decode : Decoder α) (document : Document) : Except ReadError α := do
  let value ← decode document.root
  if document.trailing then .error (.defect .malformed) else return value

/-- Decodes a text. -/
def text {α : Type} (decode : Decoder α) (text : String) : Except ReadError α :=
  Decode.document decode (Document.ofText text)

end Decode

end ProgramGraphs.Json
