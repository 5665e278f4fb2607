import ProgramGraphs.Position
import ProgramGraphs.Search.Cycle

/-!
# Canonical graphs

A canonical graph names its vertices by numbers, so that equal programs give equal
documents.  This file holds the graph itself; `ProgramGraphs.Canonical.Build` makes one
from a dependency graph.
-/

namespace ProgramGraphs

/-- A vertex of a canonical graph. -/
structure CanonicalVertex where
  id : Nat
  position : Position
  method : String
  /-- The qualified name of the class that declares the method. -/
  className : String
  deriving DecidableEq, Repr, Inhabited

/-- An edge of a canonical graph. -/
structure CanonicalEdge where
  /-- The id of the vertex that the edge leaves. -/
  source : Nat
  /-- The id of the vertex that the edge enters. -/
  target : Nat
  /-- What the edge shows. -/
  edgeType : Option String
  /-- The calling context of the edge. -/
  context : Option String
  deriving DecidableEq, Repr, Inhabited

/-- What was kept of a dependency graph, and what was left out. -/
structure CanonicalStats where
  /-- Statements of the dependency graph. -/
  statements : Nat := 0
  /-- Distinct statements in scope. -/
  applicationStatements : Nat := 0
  /-- Statements reached from the entries. -/
  reached : Nat := 0
  keptEdges : Nat := 0
  backEdges : Nat := 0
  deriving DecidableEq, Repr, Inhabited

/-- A graph over numbered vertices. -/
structure CanonicalGraph where
  vertices : List CanonicalVertex
  edges : List CanonicalEdge
  stats : CanonicalStats
  deriving DecidableEq, Repr, Inhabited

namespace CanonicalEdge

/-- The ids of an edge's ends, joined by a comma. -/
def between (edge : CanonicalEdge) : String := s!"{edge.source},{edge.target}"

end CanonicalEdge

namespace CanonicalGraph

/-- The vertex at a place in the list of vertices. -/
def vertex? (graph : CanonicalGraph) (id : Nat) : Option CanonicalVertex := graph.vertices[id]?

/-- Whether an edge runs between two ids. -/
def hasEdge (graph : CanonicalGraph) (source target : Nat) : Bool :=
  graph.edges.any fun edge => edge.source == source && edge.target == target

/-- Whether the edges contain a cycle, self-loops included.  Ends of edges are places in
the list of vertices; there is no answer when an end is not such a place. -/
def hasCycle? (graph : CanonicalGraph) : Option Bool :=
  Search.hasCycle? graph.vertices.length (graph.edges.map fun edge => (edge.source, edge.target))

end CanonicalGraph

end ProgramGraphs
