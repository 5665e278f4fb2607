import ProgramGraphs.Decimal.Layout

/-!
# Attribute values

Vertices and edges are exported with attributes.  A value has a type, which one of the
output formats declares, and a displayed text, which the others use.
-/

namespace ProgramGraphs

/-- The value of an attribute. -/
inductive Attribute where
  | bool (value : Bool)
  | int (value : Int64)
  | float (value : Float)
  | text (value : String)
  /-- A value that is missing; formats without a form for it leave the attribute out. -/
  | null
  deriving Repr, Inhabited

/-- The types that attribute values have in documents with declared types. -/
inductive AttributeType where
  | boolean
  | long
  | double
  | string
  deriving DecidableEq, Repr, Inhabited

/-- The name of a type. -/
def AttributeType.name : AttributeType → String
  | .boolean => "boolean"
  | .long => "long"
  | .double => "double"
  | .string => "string"

namespace Attribute

/-- A 64-bit count as an attribute.  Attributes are signed words, so a count of `2 ^ 63`
or more turns negative. -/
def ofCount (count : UInt64) : Attribute := .int count.toInt64

/-- A text that may be missing. -/
def ofOption : Option String → Attribute
  | some value => .text value
  | none => .null

/-- The type of a value; a missing one counts as text. -/
def type : Attribute → AttributeType
  | .bool _ => .boolean
  | .int _ => .long
  | .float _ => .double
  | .text _ | .null => .string

/-- Whether the value is missing. -/
def isNull : Attribute → Bool
  | .null => true
  | _ => false

/-- The text of a value outside JSON. -/
def display : Attribute → String
  | .bool value => if value then "true" else "false"
  | .int value => toString value.toInt
  | .float value => Decimal.render Decimal.Layout.display value
  | .text value => value
  | .null => ""

end Attribute

end ProgramGraphs
