import Std.Data.HashMap.Lemmas
import Std.Data.HashSet.Lemmas

/-!
# Depth-first search with ranks

A depth-first search over an arbitrary successor function.  The nodes that may still be
discovered are the *white* ones; the search discovers a white node at most once and
ignores every other node, so it ends whatever the successor function is.  To search a
part of a graph, start with that part as the white nodes.

The search keeps its path as an explicit list of frames, so a long path costs no more
than a short one.  A search yields two orders of the nodes it reached: the order in which
they were *discovered* (before their successors) and the order in which they were
*finished* (after their successors).  A node's place in an order is its rank there, and
the two ranks together are the node's interval.  One node's interval lies inside
another's exactly when the search reached the first while it was busy with the second.
-/

namespace ProgramGraphs.DepthFirst

variable {S : Type}

/-- A node on the search path, with those of its successors that are still to be tried. -/
structure Frame (S : Type) where
  node : S
  pending : List S

/-- How much a search path has left to do. -/
def Frame.work : List (Frame S) → Nat
  | [] => 0
  | frame :: path => frame.pending.length + 1 + work path

/-- What a search has done so far. -/
structure State (S : Type) [BEq S] [Hashable S] where
  /-- The nodes that may still be discovered. -/
  white : Std.HashSet S
  /-- The discovered nodes, the latest first. -/
  discovered : List S
  /-- The finished nodes, the latest first. -/
  finished : List S

/-- The nodes that a search reached, in its two orders. -/
structure Traversal (S : Type) where
  /-- The nodes in the order of their discovery. -/
  discovered : List S
  /-- The nodes in the order in which they were finished. -/
  finished : List S
  deriving Repr

/-- Discovering a node leaves fewer white ones. -/
theorem size_erase_lt [BEq S] [Hashable S] [LawfulBEq S] {white : Std.HashSet S} {node : S}
    (white_mem : node ∈ white) : (white.erase node).size < white.size := by
  have white_pos : white.size ≠ 0 := by
    intro empty
    have isEmpty : white.isEmpty = true := by
      rw [Std.HashSet.isEmpty_eq_size_eq_zero, empty]
      rfl
    exact Std.HashSet.isEmpty_iff_forall_not_mem.mp isEmpty node white_mem
  rw [Std.HashSet.size_erase, if_pos white_mem]
  omega

/-- Follows a search path until it is exhausted: the innermost node tries its next
successor, or is finished when it has none left. -/
def follow [BEq S] [Hashable S] [LawfulBEq S] (successors : S → List S)
    (white : Std.HashSet S) (path : List (Frame S)) (discovered finished : List S) : State S :=
  match path with
  | [] => ⟨white, discovered, finished⟩
  | ⟨node, []⟩ :: outer => follow successors white outer discovered (node :: finished)
  | ⟨node, next :: pending⟩ :: outer =>
    if next ∈ white then
      follow successors (white.erase next) (⟨next, successors next⟩ :: ⟨node, pending⟩ :: outer)
        (next :: discovered) finished
    else
      follow successors white (⟨node, pending⟩ :: outer) discovered finished
termination_by (white.size, Frame.work path)
decreasing_by
  · apply Prod.Lex.right
    simp [Frame.work]
  · apply Prod.Lex.left
    exact size_erase_lt (by assumption)
  · apply Prod.Lex.right
    simp [Frame.work]

/-- Starts a search path at a root, unless the root is already discovered. -/
def visitRoot [BEq S] [Hashable S] [LawfulBEq S] (successors : S → List S)
    (state : State S) (root : S) : State S :=
  if root ∈ state.white then
    follow successors (state.white.erase root) [⟨root, successors root⟩]
      (root :: state.discovered) state.finished
  else state

/-- Searches from each root in turn.  Only nodes of `white` are reached. -/
def search [BEq S] [Hashable S] [LawfulBEq S] (white : Std.HashSet S) (successors : S → List S)
    (roots : List S) : Traversal S :=
  let final := roots.foldl (visitRoot successors) ⟨white, [], []⟩
  { discovered := final.discovered.reverse, finished := final.finished.reverse }

/-! ## Ranks and intervals -/

/-- The two ranks of a reached node. -/
structure Interval where
  /-- The rank of the node's discovery. -/
  discover : Nat
  /-- The rank of the node's finish. -/
  finish : Nat
  deriving DecidableEq, Repr

/-- Whether the search reached the inner node while it was busy with the outer one.  A
node's interval lies inside itself. -/
def Interval.Inside (inner outer : Interval) : Prop :=
  outer.discover ≤ inner.discover ∧ inner.finish ≤ outer.finish

instance : DecidableRel Interval.Inside :=
  fun _ _ => inferInstanceAs (Decidable (_ ∧ _))

/-- The places of the nodes in an order, as a table. -/
def ranks [BEq S] [Hashable S] (order : List S) : Std.HashMap S Nat :=
  Std.HashMap.ofList order.zipIdx

/-- The ranks of all nodes that a search reached. -/
structure Ranks (S : Type) [BEq S] [Hashable S] where
  discover : Std.HashMap S Nat
  finish : Std.HashMap S Nat

/-- The rank tables of a traversal. -/
def Traversal.ranks [BEq S] [Hashable S] (traversal : Traversal S) : Ranks S :=
  ⟨DepthFirst.ranks traversal.discovered, DepthFirst.ranks traversal.finished⟩

/-- The interval of a node, when the search reached it. -/
def Ranks.interval? [BEq S] [Hashable S] (table : Ranks S) (node : S) : Option Interval := do
  let discover ← table.discover[node]?
  let finish ← table.finish[node]?
  return ⟨discover, finish⟩

end ProgramGraphs.DepthFirst
