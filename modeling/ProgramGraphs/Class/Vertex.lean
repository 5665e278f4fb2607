import ProgramGraphs.Class.Info

/-!
# Vertices of the class graph

A vertex stands for one class and carries the counts that are exported with it.  Its
identity is the qualified name alone: two observations of one class are one vertex,
whatever else they report.
-/

namespace ProgramGraphs

/-- One class of the class graph. -/
structure ClassVertex where
  /-- The qualified name, which identifies the vertex. -/
  className : String
  /-- The short name, for display. -/
  shortName : String
  isPrivate : Bool
  totalFields : UInt64
  staticFields : UInt64
  instanceFields : UInt64
  totalMethods : UInt64
  staticMethods : UInt64
  deriving DecidableEq, Repr, Inhabited

namespace ClassVertex

/-- The vertex of a class: its two names, its field counts, and how many methods it
declares. -/
def ofClass (info : ClassInfo) : ClassVertex :=
  { className := info.exportedName.qualified
    shortName := info.exportedName.short
    isPrivate := info.isPrivate
    totalFields := info.totalFields
    staticFields := info.staticFields
    instanceFields := info.instanceFields
    totalMethods := UInt64.ofNat info.methods.length
    staticMethods := UInt64.ofNat (info.methods.countP (·.isStatic)) }

/-- Two vertices are the same vertex when their qualified names agree. -/
def Same (a b : ClassVertex) : Prop := a.className = b.className

instance : DecidableRel Same := fun a b => inferInstanceAs (Decidable (a.className = b.className))

end ClassVertex

end ProgramGraphs
