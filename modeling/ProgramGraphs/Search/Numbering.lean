import ProgramGraphs.Search.DepthFirst

/-!
# Numbering the nodes of a search

A depth-first search that knows its roots and the successors of a node, and nothing else
about the graph.  It gives every node that it reaches the next free number, either when
it discovers the node or when it is done with it, and it marks what it has visited so
that no node is visited twice.

The search is a loop over `Numbering.step`.  Nothing bounds it: when ever new nodes turn
up, it goes on forever.  `search` covers a part of a graph that is known beforehand, and
keeps both orders at once.
-/

namespace ProgramGraphs.DepthFirst

variable {S : Type}

/-- The event of a search that gives a node its rank. -/
inductive RankOrder where
  /-- The search reaches the node for the first time. -/
  | discover
  /-- The search has tried all successors of the node. -/
  | finish
  deriving DecidableEq, Repr, Inhabited

/-- The state of a search that numbers nodes. -/
structure Numbering (S : Type) [BEq S] [Hashable S] where
  /-- The roots that are still to be tried. -/
  roots : List S
  /-- The search path, innermost node first. -/
  path : List (Frame S) := []
  /-- The nodes that were discovered. -/
  visited : Std.HashSet S := ∅
  /-- The numbers given so far. -/
  ranks : Std.HashMap S Nat := ∅

variable [BEq S] [Hashable S]

/-- Gives a node the next free number. -/
def rankNext (table : Std.HashMap S Nat) (node : S) : Std.HashMap S Nat :=
  table.insert node table.size

namespace Numbering

/-- Marks a node that the search discovers. -/
def enter (order : RankOrder) (state : Numbering S) (node : S) : Numbering S :=
  { state with
    visited := state.visited.insert node
    ranks := match order with
      | .discover => rankNext state.ranks node
      | .finish => state.ranks }

/-- Is done with a node, whose successors have all been tried. -/
def leave (order : RankOrder) (state : Numbering S) (node : S) : Numbering S :=
  { state with
    ranks := match order with
      | .discover => state.ranks
      | .finish => rankNext state.ranks node }

/-- Enters a node and puts it on the search path, unless it was visited before. -/
def visit (order : RankOrder) (successors : S → List S) (state : Numbering S) (node : S) :
    Numbering S :=
  if node ∈ state.visited then state
  else { state.enter order node with path := ⟨node, successors node⟩ :: state.path }

/-- One step of the search: the innermost node tries its next successor, or leaves the
path when it has none left; when the path is empty, the next root is tried.  There is no
next state when no root is left either. -/
def step (order : RankOrder) (successors : S → List S) (state : Numbering S) :
    Option (Numbering S) :=
  match state.path, state.roots with
  | ⟨node, next :: pending⟩ :: outer, _ =>
    some ({ state with path := ⟨node, pending⟩ :: outer }.visit order successors next)
  | ⟨node, []⟩ :: outer, _ => some ({ state with path := outer }.leave order node)
  | [], root :: roots => some ({ state with roots }.visit order successors root)
  | [], [] => none

/-- What the loop makes of a state: the next state, or the ranks when it is over. -/
def pass (order : RankOrder) (successors : S → List S) (state : Numbering S) :
    Id (Numbering S ⊕ Std.HashMap S Nat) :=
  match state.step order successors with
  | some next => pure (.inl next)
  | none => pure (.inr state.ranks)

end Numbering

/-- The ranks of all nodes that a search from the given roots reaches. -/
def rankBy (order : RankOrder) (successors : S → List S) (roots : List S) :
    Std.HashMap S Nat :=
  Id.run (repeatM (Numbering.pass order successors) { roots })

end ProgramGraphs.DepthFirst
