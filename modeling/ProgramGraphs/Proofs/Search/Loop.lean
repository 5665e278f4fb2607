import ProgramGraphs.Search.DepthFirst
import ProgramGraphs.Proofs.Search.Growth

/-!
# The search loop grows a forest

`DepthFirst.follow` works on an explicit search path, `Grows` by recursion.
`search_grows` says that the two agree: the orders in which the loop discovers
and finishes nodes are the two orders of the forest that grows from the roots.

A search path is read frame by frame.  The innermost frame grows a forest from
the nodes that it still has to try and then finishes its own node; what is
white after that is left to the frames outside it (`Unwinds`).  Each case of
the loop is one rule of `Grows` for the innermost frame.
-/

namespace ProgramGraphs.DepthFirst

variable {S : Type}

/-- The nodes that a search path discovers and finishes until it is exhausted,
both in the order of the search. -/
inductive Unwinds (successors : S → List S) :
    Set S → List (Frame S) → List S → List S → Prop
  | done (white : Set S) : Unwinds successors white [] [] []
  | frame {white : Set S} {node : S} {pending : List S} {outer : List (Frame S)}
      {forest : Forest S} {discovered finished : List S}
      (hforest : Grows successors white pending forest)
      (houter : Unwinds successors (white \ {node | node ∈ forest}) outer discovered finished) :
      Unwinds successors white (⟨node, pending⟩ :: outer)
        (forest.preorder ++ discovered) (forest.postorder ++ node :: finished)

theorem sdiff_tree (white : Set S) (root : S) (below rest : Forest S) :
    white \ {node | node ∈ Forest.tree root below rest} =
      ((white \ {root}) \ {node | node ∈ below}) \ {node | node ∈ rest} := by
  ext node
  simp only [Set.mem_sdiff, Set.mem_ofPred_eq, Set.mem_singleton_iff, Forest.mem_tree, not_or,
    and_assoc]

/-- Discovering a node opens a frame for it above the frame that led to it. -/
theorem Unwinds.visit {successors : S → List S} {white : Set S} {node next : S} {pending : List S}
    {outer : List (Frame S)} {discovered finished : List S} (hwhite : next ∈ white)
    (hunwinds : Unwinds successors (white \ {next})
      (⟨next, successors next⟩ :: ⟨node, pending⟩ :: outer) discovered finished) :
    Unwinds successors white (⟨node, next :: pending⟩ :: outer) (next :: discovered) finished := by
  cases hunwinds with
  | @frame _ _ _ _ below _ _ hbelow hframe =>
      cases hframe with
      | @frame _ _ _ _ rest discovered finished hrest houter =>
          -- the two forests become the tree of the new node and the trees after it
          rw [← sdiff_tree] at houter
          have hgrows := Grows.visit hwhite hbelow hrest
          have hframe : Unwinds successors white (⟨node, next :: pending⟩ :: outer) _ _ :=
            .frame hgrows houter
          simpa only [Forest.preorder, Forest.postorder, List.cons_append, List.append_assoc]
            using hframe

theorem Unwinds.skip {successors : S → List S} {white : Set S} {node next : S} {pending : List S}
    {outer : List (Frame S)} {discovered finished : List S} (hblack : next ∉ white)
    (hunwinds : Unwinds successors white (⟨node, pending⟩ :: outer) discovered finished) :
    Unwinds successors white (⟨node, next :: pending⟩ :: outer) discovered finished := by
  cases hunwinds with
  | frame hforest houter => exact .frame (.skip hblack hforest) houter

section Loop

variable [BEq S] [Hashable S]

/-- The white nodes as a set. -/
def whites (white : Std.HashSet S) : Set S := {node | node ∈ white}

/-- The second state is the first one after discovering and finishing some
nodes, both listed in the order of the search. -/
structure Extends (before : State S) (discovered finished : List S) (after : State S) : Prop where
  discovered_eq : after.discovered = discovered.reverse ++ before.discovered
  finished_eq : after.finished = finished.reverse ++ before.finished
  whites_eq : whites after.white = whites before.white \ {node | node ∈ discovered}

theorem Extends.refl (state : State S) : Extends state [] [] state :=
  ⟨rfl, rfl, by simp⟩

theorem Extends.trans {first second third : State S}
    {discovered finished discovered' finished' : List S}
    (hfirst : Extends first discovered finished second)
    (hsecond : Extends second discovered' finished' third) :
    Extends first (discovered ++ discovered') (finished ++ finished') third := by
  refine ⟨?_, ?_, ?_⟩
  · rw [hsecond.discovered_eq, hfirst.discovered_eq, List.reverse_append, List.append_assoc]
  · rw [hsecond.finished_eq, hfirst.finished_eq, List.reverse_append, List.append_assoc]
  · rw [hsecond.whites_eq, hfirst.whites_eq, Set.sdiff_sdiff]
    congr 1
    ext node
    simp only [Set.mem_union, Set.mem_ofPred_eq, List.mem_append]

theorem Extends.finish (state : State S) (node : S) :
    Extends state [] [node] { state with finished := node :: state.finished } :=
  ⟨rfl, rfl, by simp⟩

variable [LawfulBEq S]

theorem whites_erase (white : Std.HashSet S) (next : S) :
    whites (white.erase next) = whites white \ {next} := by
  ext node
  simp only [whites, Set.mem_ofPred_eq, Std.HashSet.mem_erase, Set.mem_sdiff, Set.mem_singleton_iff,
    beq_eq_false_iff_ne, ne_eq]
  exact ⟨fun ⟨hne, hmem⟩ => ⟨hmem, fun heq => hne heq.symm⟩,
    fun ⟨hmem, hne⟩ => ⟨fun heq => hne heq.symm, hmem⟩⟩

theorem Extends.discover (state : State S) (node : S) :
    Extends state [node] []
      { state with white := state.white.erase node, discovered := node :: state.discovered } :=
  ⟨rfl, rfl, by simp [whites_erase]⟩

/-- The loop unwinds its search path. -/
theorem follow_unwinds (successors : S → List S) (white : Std.HashSet S) (path : List (Frame S))
    (discovered finished : List S) :
    ∃ newDiscovered newFinished,
      Unwinds successors (whites white) path newDiscovered newFinished ∧
        Extends ⟨white, discovered, finished⟩ newDiscovered newFinished
          (follow successors white path discovered finished) := by
  fun_induction follow successors white path discovered finished with
  | case1 white discovered finished =>
      exact ⟨[], [], .done _, .refl _⟩
  | case2 white discovered finished node outer ih =>
      obtain ⟨newDiscovered, newFinished, hunwinds, hextends⟩ := ih
      refine ⟨newDiscovered, node :: newFinished, ?_, (Extends.finish _ node).trans hextends⟩
      exact .frame (.done _) (by simpa using hunwinds)
  | case3 white discovered finished node next pending outer hwhite ih =>
      obtain ⟨newDiscovered, newFinished, hunwinds, hextends⟩ := ih
      rw [whites_erase] at hunwinds
      exact ⟨next :: newDiscovered, newFinished, hunwinds.visit hwhite,
        (Extends.discover _ next).trans hextends⟩
  | case4 white discovered finished node next pending outer hblack ih =>
      obtain ⟨newDiscovered, newFinished, hunwinds, hextends⟩ := ih
      exact ⟨newDiscovered, newFinished, hunwinds.skip hblack, hextends⟩

/-- A white root becomes the root of a tree. -/
theorem visitRoot_of_white (successors : S → List S) {state : State S} {root : S}
    (hwhite : root ∈ state.white) :
    ∃ below, Grows successors (whites state.white \ {root}) (successors root) below ∧
      Extends state (root :: below.preorder) (below.postorder ++ [root])
        (visitRoot successors state root) := by
  obtain ⟨discovered, finished, hunwinds, hextends⟩ := follow_unwinds successors
    (state.white.erase root) [⟨root, successors root⟩] (root :: state.discovered) state.finished
  rw [whites_erase] at hunwinds
  rw [visitRoot, if_pos hwhite]
  cases hunwinds with
  | @frame _ _ _ _ below _ _ hbelow hdone =>
      cases hdone
      rw [List.append_nil] at hextends
      exact ⟨below, hbelow, (Extends.discover state root).trans hextends⟩

theorem foldl_visitRoot_grows (successors : S → List S) (roots : List S) (state : State S) :
    ∃ forest, Grows successors (whites state.white) roots forest ∧
      Extends state forest.preorder forest.postorder
        (roots.foldl (visitRoot successors) state) := by
  induction roots generalizing state with
  | nil => exact ⟨.empty, .done _, .refl _⟩
  | cons root roots ih =>
      rw [List.foldl_cons]
      obtain ⟨rest, hrest, hrestExtends⟩ := ih (visitRoot successors state root)
      by_cases hwhite : root ∈ state.white
      · obtain ⟨below, hbelow, hextends⟩ := visitRoot_of_white successors hwhite
        refine ⟨.tree root below rest, .visit hwhite hbelow ?_, ?_⟩
        · have hnodes : {node | node ∈ root :: below.preorder} = {root} ∪ {node | node ∈ below} :=
            Set.ext fun node => List.mem_cons
          rwa [hextends.whites_eq, hnodes, ← Set.sdiff_sdiff] at hrest
        · have htrans := hextends.trans hrestExtends
          rwa [List.append_assoc] at htrans
      · have hsame : visitRoot successors state root = state := if_neg hwhite
        rw [hsame] at hrest hrestExtends ⊢
        exact ⟨rest, .skip hwhite hrest, hrestExtends⟩

/-- **The search grows a forest** from its roots, and its two orders are those
of the forest. -/
theorem search_grows (white : Std.HashSet S) (successors : S → List S) (roots : List S) :
    ∃ forest, Grows successors (whites white) roots forest ∧
      search white successors roots = ⟨forest.preorder, forest.postorder⟩ := by
  obtain ⟨forest, hgrows, hextends⟩ := foldl_visitRoot_grows successors roots ⟨white, [], []⟩
  refine ⟨forest, hgrows, ?_⟩
  simp only [search, hextends.discovered_eq, hextends.finished_eq, List.append_nil,
    List.reverse_reverse]

end Loop

end ProgramGraphs.DepthFirst
