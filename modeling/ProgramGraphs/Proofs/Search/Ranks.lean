import Mathlib.Data.Set.Card
import ProgramGraphs.Proofs.Search.Loop

/-!
# Rank tables

The rank of a node is its place in an order.  For an order without repetitions
the table `ranks order` says just that (`getElem?_ranks`), so the ranks of a
search are the intervals of its forest (`interval?_eq`).
-/

namespace ProgramGraphs

theorem ncard_of_nodup {A : Type} {list : List A} (hnodup : list.Nodup) :
    {a | a ∈ list}.ncard = list.length := by
  classical
  rw [← List.coe_toFinset, Set.ncard_coe_finset, List.toFinset_card_of_nodup hnodup]

namespace DepthFirst

variable {S : Type} [BEq S] [Hashable S] [LawfulBEq S]

omit [Hashable S] in
theorem pairwise_zipIdx {order : List S} (hnodup : order.Nodup) :
    order.zipIdx.Pairwise fun first second => (first.1 == second.1) = false := by
  have hkeys : (order.zipIdx.map Prod.fst).Pairwise (· ≠ ·) := by
    rw [List.zipIdx_map_fst]
    exact hnodup
  exact (List.pairwise_map.mp hkeys).imp fun hne => beq_eq_false_iff_ne.mpr hne

/-- The table gives each node of an order its place there, and nothing else. -/
theorem getElem?_ranks {order : List S} (hnodup : order.Nodup) (node : S) :
    (ranks order)[node]? = if node ∈ order then some (order.idxOf node) else none := by
  unfold ranks
  by_cases hmem : node ∈ order
  · have hlt := List.idxOf_lt_length_of_mem hmem
    have hpair : (node, order.idxOf node) ∈ order.zipIdx := by
      rw [List.mk_mem_zipIdx_iff_getElem?, List.getElem?_eq_getElem hlt, List.getElem_idxOf hlt]
    rw [if_pos hmem]
    exact Std.HashMap.getElem?_ofList_of_mem (beq_self_eq_true node) (pairwise_zipIdx hnodup) hpair
  · have hkeys : (order.zipIdx.map Prod.fst).contains node = false := by
      rw [List.zipIdx_map_fst]
      simpa using hmem
    rw [if_neg hmem, Std.HashMap.getElem?_ofList_of_contains_eq_false hkeys]

/-- The ranks of a node that a search reached are the ends of its interval. -/
theorem interval?_eq {forest : Forest S} (hdistinct : forest.Distinct) (node : S) :
    (Traversal.ranks ⟨forest.preorder, forest.postorder⟩).interval? node =
      if node ∈ forest then some (forest.interval node) else none := by
  unfold Traversal.ranks Ranks.interval?
  simp only
  rw [getElem?_ranks hdistinct, getElem?_ranks hdistinct.nodup_postorder]
  by_cases hmem : node ∈ forest
  · rw [if_pos hmem, if_pos (Forest.mem_preorder.mpr hmem), if_pos (Forest.mem_postorder.mpr hmem)]
    rfl
  · rw [if_neg hmem, if_neg (fun h => hmem (Forest.mem_preorder.mp h)),
      if_neg (fun h => hmem (Forest.mem_postorder.mp h))]
    rfl

end DepthFirst

end ProgramGraphs
