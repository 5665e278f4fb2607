import ProgramGraphs.Class.Name

/-!
# What an analysis reports about a class

Counts are 64-bit words, as the analysis reports them.
-/

namespace ProgramGraphs

/-- A method that a class declares itself. -/
structure DeclaredMethod where
  name : String := ""
  isStatic : Bool := false
  deriving DecidableEq, Repr, Inhabited

/-- A class of the analysed program or of its libraries. -/
structure ClassInfo where
  /-- The class's descriptor. -/
  name : String := ""
  /-- The class loader that defined the class. -/
  loader : String := ""
  isPrivate : Bool := false
  /-- All fields, inherited ones included. -/
  totalFields : UInt64 := 0
  staticFields : UInt64 := 0
  instanceFields : UInt64 := 0
  /-- The methods declared by the class itself. -/
  methods : List DeclaredMethod := []
  deriving DecidableEq, Repr, Inhabited

namespace ClassInfo

/-- The names under which the class is exported. -/
def exportedName (info : ClassInfo) : ClassName := ClassName.ofDescriptor info.name

end ClassInfo

end ProgramGraphs
