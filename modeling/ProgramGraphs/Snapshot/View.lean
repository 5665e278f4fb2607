import Std.Data.HashMap
import Std.Data.HashSet
import ProgramGraphs.CallGraph
import ProgramGraphs.DependencyGraph
import ProgramGraphs.Snapshot.References

/-!
# Snapshots as graphs

A *view* is a snapshot with the tables that answer what follows a statement, what is
known of an edge, and where searches start.  Only the first edge between two statements
counts, so the successors of a statement are distinct.  Where a snapshot gives no
entries, they are the first method entries of the call graph's entry points.

A view of a snapshot whose references were not checked has empty tables, and gives a
graph only when every element that the graph asks for is there.
-/

namespace ProgramGraphs.Snapshot

/-- Tables over the edges of a dependency graph. -/
structure Tables where
  /-- The distinct successors of each statement, in the order of their first edges. -/
  successors : Array (Array Nat) := #[]
  /-- The first edge between two statements. -/
  edges : Std.HashMap (Nat × Nat) Edge := {}
  /-- The statements that searches start from. -/
  entries : List Nat := []

namespace Tables

/-- Takes note of an edge, unless one between its ends came before. -/
def addEdge (tables : Tables) (edge : Edge) : Tables :=
  let ends := (edge.source.toNat, edge.target.toNat)
  if tables.edges.contains ends then tables
  else
    { tables with
      successors := tables.successors.modify ends.1 (·.push ends.2)
      edges := tables.edges.insert ends edge }

end Tables

namespace DependencySection

/-- The first method entry of each node that has one. -/
def methodEntries (graph : DependencySection) : Std.HashMap Nat Nat :=
  graph.statements.zipIdx.foldl (fun table (statement, place) =>
    if statement.kind = .methodEntry then table.insertIfNew statement.node.toNat place
    else table) {}

/-- The distinct first method entries of some nodes, in the order of the nodes. -/
def deriveEntries (graph : DependencySection) (entryPoints : List Index) : List Nat :=
  let table := graph.methodEntries
  (entryPoints.filterMap fun node => table[node.toNat]?).eraseDups

/-- The tables of a dependency graph. -/
def tables (graph : DependencySection) (entryPoints : List Index) : Tables :=
  graph.edges.foldl Tables.addEdge
    { successors := Array.replicate graph.statements.length #[]
      entries := match graph.entries with
        | some entries => entries.map (·.toNat)
        | none => graph.deriveEntries entryPoints }

end DependencySection

/-- A snapshot with its tables. -/
structure View where
  snapshot : Snapshot
  tables : Tables

/-- The view of a snapshot whose references were not checked. -/
def unchecked (snapshot : Snapshot) : View := ⟨snapshot, {}⟩

/-- The view of a snapshot, or its first dangling reference. -/
def validate (snapshot : Snapshot) : Except Reference View :=
  match snapshot.dangling? with
  | some reference => .error reference
  | none =>
    .ok ⟨snapshot, match snapshot.dependencyGraph with
      | some graph => graph.tables snapshot.callGraph.entryPoints
      | none => {}⟩

/-- What is known of a call graph node. -/
structure NodeInfo where
  /-- The name of the node's method. -/
  method : String
  /-- The class that declares the method. -/
  declaringClass : ClassInfo
  deriving DecidableEq, Repr, Inhabited

/-- What is known of each call graph node whose method and class are there. -/
def nodeInfos (snapshot : Snapshot) : Array (Option NodeInfo) :=
  let methods := snapshot.methods.toArray
  let classes := snapshot.classes.toArray
  snapshot.callGraph.nodes.toArray.map fun node => do
    let method ← methods[node.method.toNat]?
    let declaringClass ← classes[method.declaringClass.toNat]?
    return ⟨method.name, declaringClass⟩

/-- The statements of the dependency graph; none when there is no such graph. -/
def statements (snapshot : Snapshot) : List Statement :=
  match snapshot.dependencyGraph with
  | some graph => graph.statements
  | none => []

namespace View

/-- What is known of a statement, when its node is known. -/
def statementInfo? (nodes : Array (Option NodeInfo)) (statement : Statement) :
    Option StatementInfo := do
  let node ← (nodes[statement.node.toNat]?).join
  return {
    kind := statement.kind
    method := node.method
    declaringClass := node.declaringClass
    position := .ofOption statement.line }

/-- What is known of each statement whose node is known. -/
def statementInfos (view : View) : Array (Option StatementInfo) :=
  (view.snapshot.statements.map (statementInfo? view.snapshot.nodeInfos)).toArray

/-- The dependency graph over the places of the statements.  Nothing is said about a
statement whose node is not known. -/
def dependencyGraph (view : View) : DependencyGraph Nat :=
  let infos := view.statementInfos
  { statements := List.range infos.size
    successors := fun statement => (view.tables.successors.getD statement #[]).toList
    entries := view.tables.entries
    info := fun statement => ((infos[statement]?).join).getD {}
    dependence := fun source target => (view.tables.edges[(source, target)]?).bind (·.dependence)
    context := fun source target => (view.tables.edges[(source, target)]?).bind (·.context) }

/-- The dependency graph, when the nodes of all statements are known. -/
def dependencyGraph? (view : View) : Option (DependencyGraph Nat) :=
  if view.statementInfos.all Option.isSome then some view.dependencyGraph else none

/-- The call sites of the node at a place. -/
def callSites (nodes : Array CallNode) (place : Nat) : List (List Nat) :=
  match nodes[place]? with
  | some node => node.callSites.map fun site => site.targets.map (·.toNat)
  | none => []

/-- The call graph over the places of the nodes.  Nothing is said about a node whose method
or class is not known. -/
def callGraph (view : View) : CallGraph Nat :=
  let infos := view.snapshot.nodeInfos
  let nodes := view.snapshot.callGraph.nodes.toArray
  { entryPoints := view.snapshot.callGraph.entryPoints.map (·.toNat)
    callSites := callSites nodes
    method := fun place => (((infos[place]?).join).map (·.method)).getD ""
    declaringClass := fun place => (((infos[place]?).join).map (·.declaringClass)).getD {} }

/-- The nodes that the calls of the call graph touch. -/
def touched (view : View) : List Nat :=
  view.callGraph.entryPoints ++ view.callGraph.calls.map (·.2)

/-- The call graph, when the methods and classes of all nodes are known that its calls
touch. -/
def callGraph? (view : View) : Option (CallGraph Nat) :=
  let infos := view.snapshot.nodeInfos
  if view.touched.all fun place => ((infos[place]?).join).isSome then some view.callGraph else none

end View

end ProgramGraphs.Snapshot
