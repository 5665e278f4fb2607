import Std.Data.HashMap
import ProgramGraphs.CallGraph
import ProgramGraphs.Class.Vertex
import ProgramGraphs.Scope

/-!
# The class graph

The class graph has one vertex for each class and at most one edge for each ordered pair
of different classes.  An edge counts the calls observed between its two classes and
remembers the methods of the first of them.  Vertices and edges keep the order in which
they were first observed.

The graph of a call graph records the calls of the entry points whose target is in scope.
-/

namespace ProgramGraphs

/-- What is known of the calls between two classes. -/
structure CallEdge where
  /-- The calling method of the first observed call. -/
  sourceMethod : String
  /-- The called method of the first observed call. -/
  targetMethod : String
  /-- How many calls were observed. -/
  weight : Float
  deriving Repr, Inhabited

namespace CallEdge

/-- The edge of a first observed call. -/
def first (sourceMethod targetMethod : String) : CallEdge := ⟨sourceMethod, targetMethod, 1.0⟩

/-- The edge after one more call. -/
def again (edge : CallEdge) : CallEdge := { edge with weight := edge.weight + 1.0 }

end CallEdge

/-- An edge between two vertices, given by their places. -/
structure ClassLink where
  source : Nat
  target : Nat
  call : CallEdge
  deriving Repr, Inhabited

/-- A weighted graph of classes. -/
structure ClassGraph where
  /-- The vertices in the order in which they were added. -/
  vertices : Array ClassVertex := #[]
  /-- The edges in the order in which they were first observed. -/
  links : Array ClassLink := #[]
  /-- The place of each vertex, by qualified name. -/
  places : Std.HashMap String Nat := {}

/-- The size of a class graph. -/
structure ClassGraphStats where
  classes : Nat
  edges : Nat
  /-- The number of recorded calls. -/
  callSites : Nat
  deriving DecidableEq, Repr, Inhabited

namespace ClassGraph

/-- The graph without classes. -/
def empty : ClassGraph := {}

/-- Adds a vertex, unless one of the same name is there.  The result includes the place of
the vertex of that name. -/
def addVertex (graph : ClassGraph) (vertex : ClassVertex) : ClassGraph × Nat :=
  match graph.places[vertex.className]? with
  | some place => (graph, place)
  | none =>
    let place := graph.vertices.size
    ({ graph with
        vertices := graph.vertices.push vertex
        places := graph.places.insert vertex.className place }, place)

/-- Where the edge between two places is listed. -/
def findLink? (graph : ClassGraph) (source target : Nat) : Option Nat :=
  graph.links.findIdx? fun link => link.source == source && link.target == target

/-- Counts a call between two places. -/
def countCall (graph : ClassGraph) (source target : Nat) (sourceMethod targetMethod : String) :
    ClassGraph :=
  match graph.findLink? source target with
  | some index =>
    { graph with
        links := graph.links.modify index fun link => { link with call := link.call.again } }
  | none =>
    { graph with
        links := graph.links.push ⟨source, target, CallEdge.first sourceMethod targetMethod⟩ }

/-- Records an observed call, and says whether it did.  A call within one class is not
recorded: it leaves the graph as it is. -/
def tryRecordCall (graph : ClassGraph) (source target : ClassVertex)
    (sourceMethod targetMethod : String) : ClassGraph × Bool :=
  if source.Same target then (graph, false)
  else
    let (graph, sourcePlace) := graph.addVertex source
    let (graph, targetPlace) := graph.addVertex target
    (graph.countCall sourcePlace targetPlace sourceMethod targetMethod, true)

/-- The graph after an observed call. -/
def recordCall (graph : ClassGraph) (source target : ClassVertex)
    (sourceMethod targetMethod : String) : ClassGraph :=
  (graph.tryRecordCall source target sourceMethod targetMethod).1

/-- The vertex of a class. -/
def vertex? (graph : ClassGraph) (className : String) : Option ClassVertex := do
  let place ← graph.places[className]?
  graph.vertices[place]?

/-- The edge between two classes. -/
def edge? (graph : ClassGraph) (source target : String) : Option CallEdge := do
  let sourcePlace ← graph.places[source]?
  let targetPlace ← graph.places[target]?
  let index ← graph.findLink? sourcePlace targetPlace
  let link ← graph.links[index]?
  return link.call

/-- The edges with their two vertices. -/
def edges (graph : ClassGraph) : List (ClassVertex × ClassVertex × CallEdge) :=
  graph.links.toList.filterMap fun link => do
    let source ← graph.vertices[link.source]?
    let target ← graph.vertices[link.target]?
    return (source, target, link.call)

/-- The number of recorded calls, as the sum of all weights. -/
def totalWeight (graph : ClassGraph) : Float :=
  graph.links.foldl (fun sum link => sum + link.call.weight) 0.0

/-- The size of the graph. -/
def stats (graph : ClassGraph) : ClassGraphStats :=
  { classes := graph.vertices.size
    edges := graph.links.size
    callSites := graph.totalWeight.toUInt64.toNat }

end ClassGraph

namespace CallGraph

variable {N : Type}

/-- Records one call of a call graph. -/
def record (graph : CallGraph N) (classes : ClassGraph) (call : N × N) : ClassGraph :=
  classes.recordCall (ClassVertex.ofClass (graph.declaringClass call.1))
    (ClassVertex.ofClass (graph.declaringClass call.2)) (graph.method call.1) (graph.method call.2)

/-- The calls whose target is in scope. -/
def applicationCalls (graph : CallGraph N) (scope : Scope) : List (N × N) :=
  graph.calls.filter fun call => scope (graph.declaringClass call.2)

/-- The class graph of the calls whose target is in scope. -/
def reduce (graph : CallGraph N) (scope : Scope) : ClassGraph :=
  (graph.applicationCalls scope).foldl graph.record ClassGraph.empty

end CallGraph

end ProgramGraphs
