import ProgramGraphs.Json.Value
import ProgramGraphs.Record.Attribute

/-!
# Attribute maps

An attribute map keeps its keys in the order in which they were first inserted.
Inserting a key again replaces its value in place.
-/

namespace ProgramGraphs

/-- The attributes of a vertex or an edge, in insertion order. -/
structure Attributes where
  toList : List (String × Attribute) := []
  deriving Repr, Inhabited

namespace Attributes

/-- The map without attributes. -/
def empty : Attributes := {}

/-- Replaces the value of a key where it stands, or adds the key at the end. -/
def insertEntry (key : String) (value : Attribute) :
    List (String × Attribute) → List (String × Attribute)
  | [] => [(key, value)]
  | entry :: rest =>
    if entry.1 = key then (key, value) :: rest else entry :: insertEntry key value rest

/-- Sets the value of a key. -/
def insert (attributes : Attributes) (key : String) (value : Attribute) : Attributes :=
  ⟨insertEntry key value attributes.toList⟩

/-- The map with the given entries inserted in order. -/
def ofList (entries : List (String × Attribute)) : Attributes :=
  entries.foldl (fun attributes entry => attributes.insert entry.1 entry.2) empty

/-- The value of a key. -/
def get? (attributes : Attributes) (key : String) : Option Attribute :=
  attributes.toList.lookup key

/-- The number of keys. -/
def size (attributes : Attributes) : Nat := attributes.toList.length

/-- Whether the map has no keys. -/
def isEmpty (attributes : Attributes) : Bool := attributes.toList.isEmpty

/-- The keys whose value is not missing, with the displayed texts. -/
def shown (attributes : Attributes) : List (String × String) :=
  attributes.toList.filterMap fun (key, value) =>
    if value.isNull then none else some (key, value.display)

end Attributes

/-- An attribute as a JSON value. -/
def Attribute.toJson : Attribute → Json.Value
  | .bool value => .bool value
  | .int value => .integer value.toInt
  | .float value => .float value
  | .text value => .string value
  | .null => .null

/-- An attribute map as a JSON object. -/
def Attributes.toJson (attributes : Attributes) : Json.Value :=
  .object (attributes.toList.map fun (key, value) => (key, value.toJson))

end ProgramGraphs
