import ProgramGraphs.Decimal.Layout
import ProgramGraphs.Text.Visible

/-!
# Documents that do not fit

A document can keep to its grammar and still not hold what is wanted.  A `Mismatch` is
the reason.  Formats differ only in how they lay out floating-point numbers in it.
-/

namespace ProgramGraphs.Reading

/-- What stands in a document where something else is wanted. -/
inductive Found where
  | null
  | bool (value : Bool)
  | integer (value : Int)
  | float (value : Float)
  | string (text : String)
  | sequence
  | map
  /-- The name of a variant without the content it needs. -/
  | unitVariant
  deriving Repr, Inhabited

/-- Why a well-formed document does not hold what is wanted. -/
inductive Mismatch where
  | wrongType (found : Found) (expected : String)
  | wrongValue (found : Found) (expected : String)
  | wrongLength (length : Nat) (expected : String)
  | unknownVariant (name : String) (known : List String)
  | missingField (name : String)
  | duplicateField (name : String)
  /-- A source line beyond 32 bits. -/
  | positionOutOfRange (line : Int)
  /-- A table stands for a variant and has no entry. -/
  | noEntry
  /-- A table stands for a variant and has several entries. -/
  | severalEntries
  /-- Neither a name nor a table stands for a variant. -/
  | neitherNameNorTable
  /-- A table that must be empty is not. -/
  | tableNotEmpty
  /-- A list that must be empty is not. -/
  | listNotEmpty
  /-- A value of another kind stands where an empty table must stand. -/
  | notATable (kind : String)
  deriving Repr, Inhabited

/-- The description of what was found. -/
def Found.describe (layout : Decimal.Layout) : Found → String
  | .null => "null"
  | .bool value => if value then "boolean `true`" else "boolean `false`"
  | .integer value => "integer `" ++ toString value ++ "`"
  | .float value => "floating point `" ++ Decimal.render layout value ++ "`"
  | .string text => "string " ++ Text.visible text
  | .sequence => "sequence"
  | .map => "map"
  | .unitVariant => "unit variant"

/-- A name in a report. -/
def named (name : String) : String := "`" ++ name ++ "`"

/-- The known variants in a report. -/
def oneOf : List String → String
  | [] => "there are no variants"
  | [only] => "expected " ++ named only
  | [first, second] => "expected " ++ named first ++ " or " ++ named second
  | names => "expected one of " ++ ", ".intercalate (names.map named)

/-- The report of a mismatch. -/
def Mismatch.message (layout : Decimal.Layout) : Mismatch → String
  | .wrongType found expected =>
    "invalid type: " ++ found.describe layout ++ ", expected " ++ expected
  | .wrongValue found expected =>
    "invalid value: " ++ found.describe layout ++ ", expected " ++ expected
  | .wrongLength length expected =>
    "invalid length " ++ toString length ++ ", expected " ++ expected
  | .unknownVariant name known => "unknown variant " ++ named name ++ ", " ++ oneOf known
  | .missingField name => "missing field " ++ named name
  | .duplicateField name => "duplicate field " ++ named name
  | .positionOutOfRange line => "position " ++ toString line ++ " out of range"
  | .noEntry => "wanted exactly 1 element, found 0 elements"
  | .severalEntries => "wanted exactly 1 element, more than 1 element"
  | .neitherNameNorTable => "wanted string or table"
  | .tableNotEmpty => "expected empty table"
  | .listNotEmpty => "expected empty array"
  | .notATable kind => "expected table, found " ++ kind

end ProgramGraphs.Reading
