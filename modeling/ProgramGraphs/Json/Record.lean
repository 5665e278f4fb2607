import ProgramGraphs.Json.Decode

/-!
# Decoding records

A record is written as an object with one member for each field, or as a list of its
fields in order.  Members that are no fields are passed over.  A field that is missing
from an object, or that a list ends before, may have a value of its own.

Fields are decoded where they stand in the document, so the first problem there is the
one that is reported.  What is missing shows when the object ends, and then the first
missing field in the order of the record is reported.
-/

namespace ProgramGraphs.Json.Record

open Reading (Mismatch)

/-- A field of a record. -/
structure Field (α : Type) where
  name : String
  decode : Decoder α
  /-- The value of the field when an object has no such member. -/
  absent : Option α := none
  /-- The value of the field when a list ends before it. -/
  short : Option α := none

/-- A field that must be given. -/
def Field.required {α : Type} (name : String) (decode : Decoder α) : Field α :=
  { name, decode }

/-- A field with a value of its own. -/
def Field.withDefault {α : Type} (name : String) (decode : Decoder α) (value : α) : Field α :=
  { name, decode, absent := some value, short := some value }

/-- A field that may be left out of an object but not of a list. -/
def Field.nullable {α : Type} (name : String) (decode : Decoder α) : Field (Option α) :=
  { name, decode := Decode.optional decode, absent := some none }

/-- The fields of a record with values of the given types. -/
inductive Fields : List Type → Type 1 where
  | nil : Fields []
  | cons {α : Type} {types : List Type} (field : Field α) (rest : Fields types) :
      Fields (α :: types)

/-- Values of all fields. -/
def Values : List Type → Type
  | [] => Unit
  | α :: types => α × Values types

/-- Values of those fields that were met. -/
def Slots : List Type → Type
  | [] => Unit
  | α :: types => Option α × Slots types

namespace Fields

/-- No field was met. -/
def unmet : {types : List Type} → Fields types → Slots types
  | [], .nil => ()
  | _ :: _, .cons _ rest => (none, rest.unmet)

/-- The number of fields. -/
def size : {types : List Type} → Fields types → Nat
  | [], .nil => 0
  | _ :: _, .cons _ rest => rest.size + 1

/-- Decodes the member of a given key; nothing when no field has that name. -/
def place : {types : List Type} → Fields types → Slots types → String → Node →
    Option (Except ReadError (Slots types))
  | [], .nil, _, _, _ => none
  | _ :: _, .cons field rest, (slot, slots), key, node =>
    if key = field.name then
      match slot with
      | some _ => some (.error (.mismatch (.duplicateField field.name)))
      | none => some ((fun value => (some value, slots)) <$> field.decode node)
    else (rest.place slots key node).map fun result => (fun slots => (slot, slots)) <$> result

/-- Decodes the members of an object. -/
def fill {types : List Type} (fields : Fields types) (slots : Slots types) :
    Members → Except ReadError (Slots types)
  | .close => .ok slots
  | .stopped stop => .error (.defect stop.read)
  | .keyless found => .error (.defect found.keyDefect)
  | .member none _ _ => .error (.defect .malformed)
  | .member (some key) node rest =>
    match fields.place slots key node with
    | some (.ok slots) => fields.fill slots rest
    | some (.error error) => .error error
    | none =>
      match node.pass with
      | .ok () => fields.fill slots rest
      | .error defect => .error (.defect defect)

/-- The values of all fields, or the first one that is missing. -/
def finish : {types : List Type} → Fields types → Slots types → Except ReadError (Values types)
  | [], .nil, _ => .ok ()
  | _ :: _, .cons field rest, (slot, slots) =>
    match slot.or field.absent with
    | some value => (fun values => (value, values)) <$> rest.finish slots
    | none => .error (.mismatch (.missingField field.name))

/-- Decodes the items of a list as the fields in order. -/
def ofItems (expected : String) : {types : List Type} → Fields types → Nat → Items →
    Except ReadError (Values types × Items)
  | [], .nil, _, nodes => .ok ((), nodes)
  | _ :: _, .cons field rest, index, .item node nodes => do
    let value ← field.decode node
    let (values, after) ← rest.ofItems expected (index + 1) nodes
    return ((value, values), after)
  | _ :: _, .cons field rest, index, .close =>
    match field.short with
    | some value => do
      let (values, after) ← rest.ofItems expected (index + 1) .close
      return ((value, values), after)
    | none => .error (.mismatch (.wrongLength index expected))
  | _ :: _, .cons _ _, _, .stopped stop => .error (.defect stop.read)

end Fields

/-- A number of elements, in words. -/
def elements (count : Nat) : String :=
  if count = 1 then "1 element" else toString count ++ " elements"

/-- The fields of a record that is written as an object. -/
def ofMembers {types : List Type} (fields : Fields types) (members : Members) :
    Except ReadError (Values types) := do
  let slots ← fields.fill fields.unmet members
  fields.finish slots

/-- The fields of a record that is written as a list. -/
def ofList {types : List Type} (name : String) (fields : Fields types) (nodes : Items) :
    Except ReadError (Values types) := do
  let (values, rest) ← fields.ofItems (name ++ " with " ++ elements fields.size) 0 nodes
  Decode.listEnd rest
  return values

/-- A record of a given name. -/
def decode {types : List Type} {α : Type} (name : String) (fields : Fields types)
    (build : Values types → α) : Decoder α
  | .object members => build <$> ofMembers fields members
  | .list nodes => build <$> ofList name fields nodes
  | node => Decode.wrongType name node

end ProgramGraphs.Json.Record
