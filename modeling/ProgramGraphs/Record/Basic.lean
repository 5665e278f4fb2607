import ProgramGraphs.Record.Attributes

/-!
# Exported records

Every graph is exported through the same records, so all output formats carry the same
vertices, edges and attributes.
-/

namespace ProgramGraphs

/-- An exported vertex. -/
structure VertexRecord where
  id : String
  /-- A short text to show for the vertex. -/
  caption : String
  attributes : Attributes
  deriving Repr, Inhabited

/-- An exported edge between two vertex ids. -/
structure EdgeRecord where
  source : String
  target : String
  attributes : Attributes
  deriving Repr, Inhabited

/-- The exported form of a graph. -/
structure GraphRecord where
  vertices : List VertexRecord
  edges : List EdgeRecord
  deriving Repr, Inhabited

end ProgramGraphs
