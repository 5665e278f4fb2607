import ProgramGraphs.Search.DepthFirst

/-!
# Cycles of a list of edges

The vertices are the numbers below a bound.  A depth-first search from every vertex
finishes the target of an edge before its source, unless the edge closes a cycle: so the
edges contain a cycle exactly when one of them does not lead to an earlier finished
vertex.
-/

namespace ProgramGraphs.Search

/-- The targets of the edges that leave each vertex, in the order of the edges. -/
def adjacency (size : Nat) (edges : List (Nat × Nat)) : Array (List Nat) :=
  edges.foldr (fun edge table => table.modify edge.1 (edge.2 :: ·)) (Array.replicate size [])

/-- Whether the edges between vertices below `size` contain a cycle, self-loops included;
nothing when an edge has an endpoint that is no vertex. -/
def hasCycle? (size : Nat) (edges : List (Nat × Nat)) : Option Bool :=
  if edges.all fun edge => edge.1 < size && edge.2 < size then
    let vertices := List.range size
    let table := adjacency size edges
    let traversal := DepthFirst.search (Std.HashSet.ofList vertices)
      (fun vertex => table.getD vertex []) vertices
    let finish := DepthFirst.ranks traversal.finished
    some (edges.any fun edge => finish.getD edge.1 0 ≤ finish.getD edge.2 0)
  else none

end ProgramGraphs.Search
