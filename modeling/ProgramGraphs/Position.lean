/-!
# Source positions

The source line of a statement, where the analysis knows it.  An unknown line is
exported as `-1`.
-/

namespace ProgramGraphs

/-- The source line of a statement. -/
inductive Position where
  /-- A known line. -/
  | line (number : UInt32)
  /-- The analysis does not know the line. -/
  | unknown
  deriving DecidableEq, Repr, Inhabited

namespace Position

/-- An optional line number as a position. -/
def ofOption : Option UInt32 → Position
  | some number => .line number
  | none => .unknown

/-- The number that is exported: the line, or `-1`. -/
def toInt : Position → Int
  | .line number => number.toNat
  | .unknown => -1

/-- The exported number as text. -/
def render (position : Position) : String := toString position.toInt

end Position

end ProgramGraphs
