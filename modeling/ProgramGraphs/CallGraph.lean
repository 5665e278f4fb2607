import ProgramGraphs.Class.Info

/-!
# Call graphs

The nodes of a call graph stand for methods in some calling context.  A node has call
sites, and each site may have several targets.
-/

namespace ProgramGraphs

/-- A call graph over nodes of type `N`. -/
structure CallGraph (N : Type) where
  /-- The nodes that the program starts from. -/
  entryPoints : List N
  /-- For each call site of a node, the nodes it may call. -/
  callSites : N → List (List N)
  /-- The name of the node's method. -/
  method : N → String
  /-- The class that declares the node's method. -/
  declaringClass : N → ClassInfo

namespace CallGraph

variable {N : Type}

/-- The calls made by entry points, site by site, as pairs of caller and target. -/
def calls (graph : CallGraph N) : List (N × N) :=
  graph.entryPoints.flatMap fun caller =>
    (graph.callSites caller).flatten.map fun target => (caller, target)

end CallGraph

end ProgramGraphs
