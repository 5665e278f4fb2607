import ProgramGraphs.Canonical.Graph
import ProgramGraphs.DependencyGraph
import ProgramGraphs.Scope

/-!
# Canonical graphs of dependency graphs

A dependency graph becomes canonical in three steps.  It is restricted to the statements
in scope; a depth-first search from the entries numbers the statements it reaches in the
order of their discovery; and edges that lead back to a statement which the search was
still busy with are dropped.  Edges are listed by the finish rank of their source, and
for one source in the order of its successors.

Dropping every such edge leaves no cycle.  A weaker policy keeps the ones between
different methods, for readers who want to see recursion.
-/

namespace ProgramGraphs

open DepthFirst (Interval Ranks)

/-- Which edges into a statement that the search is still busy with are dropped. -/
inductive BackEdgePolicy where
  /-- All of them. -/
  | anyNested
  /-- Those between statements of one method. -/
  | sameMethod
  deriving DecidableEq, Repr, Inhabited

/-- An edge between two reached statements, with what the search says about its ends. -/
structure Dependence (S : Type) where
  source : S
  target : S
  sourceInterval : Interval
  targetInterval : Interval

namespace Dependence

variable {S : Type}

/-- Whether the search was still busy with the target when it was at the source. -/
def Nested (edge : Dependence S) : Prop := edge.sourceInterval.Inside edge.targetInterval

instance (edge : Dependence S) : Decidable edge.Nested :=
  inferInstanceAs (Decidable (Interval.Inside _ _))

/-- Whether both ends are statements of one method: equal method names, and equal
descriptors of the declaring classes. -/
def SameMethod (graph : DependencyGraph S) (edge : Dependence S) : Prop :=
  (graph.info edge.source).method = (graph.info edge.target).method ∧
    (graph.info edge.source).declaringClass.name = (graph.info edge.target).declaringClass.name

instance (graph : DependencyGraph S) (edge : Dependence S) : Decidable (edge.SameMethod graph) :=
  inferInstanceAs (Decidable (_ ∧ _))

/-- Whether a policy drops an edge. -/
def dropped (graph : DependencyGraph S) (policy : BackEdgePolicy) (edge : Dependence S) : Bool :=
  match policy with
  | .anyNested => decide edge.Nested
  | .sameMethod => decide edge.Nested && decide (edge.SameMethod graph)

/-- The edge under the numbers of its ends. -/
def canonical (graph : DependencyGraph S) (labeler : Labeler S) (edge : Dependence S) :
    CanonicalEdge :=
  { source := edge.sourceInterval.discover
    target := edge.targetInterval.discover
    edgeType := labeler edge.source edge.target
    context := graph.context edge.source edge.target }

end Dependence

namespace DependencyGraph

variable {S : Type} [BEq S] [Hashable S]

/-- The statements whose class is in scope. -/
def inScope (graph : DependencyGraph S) (scope : Scope) : Std.HashSet S :=
  Std.HashSet.ofList (graph.statements.filter fun s => scope (graph.info s).declaringClass)

/-- The search that numbers the statements: from the entries, through statements in scope. -/
def traversal [LawfulBEq S] (graph : DependencyGraph S) (scope : Scope) :
    DepthFirst.Traversal S :=
  DepthFirst.search (graph.inScope scope) graph.successors graph.entries

/-- The edges between reached statements, by the finish rank of their source. -/
def dependences (graph : DependencyGraph S) (finished : List S) (ranks : Ranks S) :
    List (Dependence S) :=
  finished.flatMap fun source => (graph.successors source).filterMap fun target => do
    let sourceInterval ← ranks.interval? source
    let targetInterval ← ranks.interval? target
    return { source, target, sourceInterval, targetInterval }

/-- The vertex of the statement with a given discovery rank. -/
def canonicalVertex (graph : DependencyGraph S) (statement : S) (rank : Nat) : CanonicalVertex :=
  let info := graph.info statement
  { id := rank
    position := info.position
    method := info.method
    className := info.declaringClass.exportedName.qualified }

/-- The canonical graph of a dependency graph. -/
def canonicalize [LawfulBEq S] (graph : DependencyGraph S) (scope : Scope)
    (policy : BackEdgePolicy) (labeler : Labeler S) : CanonicalGraph :=
  let traversal := graph.traversal scope
  let (back, kept) := (graph.dependences traversal.finished traversal.ranks).partition
    (Dependence.dropped graph policy)
  { vertices := traversal.discovered.zipIdx.map fun (s, rank) => graph.canonicalVertex s rank
    edges := kept.map (Dependence.canonical graph labeler)
    stats :=
      { statements := graph.statements.length
        applicationStatements := (graph.inScope scope).size
        reached := traversal.discovered.length
        keptEdges := kept.length
        backEdges := back.length } }

end DependencyGraph

end ProgramGraphs
