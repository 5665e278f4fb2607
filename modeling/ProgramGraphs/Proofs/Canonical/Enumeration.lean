import ProgramGraphs.Proofs.Canonical.Renaming
import ProgramGraphs.Proofs.Search.WhitePath

/-!
# Canonical graphs do not depend on how tables are enumerated

A table of ranks has no order of its own.  Whoever makes a canonical graph from two such
tables lists their entries as the tables happen to give them, and sorts them by rank, and
a sort may leave entries of equal rank in any order (`SortsByRank`).  `assemble` is the
canonical graph that is made so.

It is the canonical graph all the same (`assemble_eq_canonicalize`).  The ranks of a search
are the places of the nodes in an order without repetitions, so no two entries have one
rank, and sorting can give only one list (`SortsByRank.eq_zipIdx`).
-/

namespace ProgramGraphs

namespace DepthFirst

variable {S : Type}

/-- A list is what sorting entries by rank may give.  Nothing is said about the order of
entries with equal ranks. -/
def SortsByRank (entries sorted : List (S × Nat)) : Prop :=
  sorted.Perm entries ∧ sorted.Pairwise fun first second => first.2 ≤ second.2

/-- Entries sorted by rank, by one particular method. -/
def sortByRank (entries : List (S × Nat)) : List (S × Nat) :=
  entries.mergeSort fun first second => decide (first.2 ≤ second.2)

theorem sortsByRank_sortByRank (entries : List (S × Nat)) :
    SortsByRank entries (sortByRank entries) := by
  refine ⟨List.mergeSort_perm entries _, ?_⟩
  have hsorted : (sortByRank entries).Pairwise fun first second =>
      decide (first.2 ≤ second.2) = true :=
    List.pairwise_mergeSort
      (fun a b c hab hbc => by simp only [decide_eq_true_eq] at *; omega)
      (fun a b => by simp only [Bool.or_eq_true, decide_eq_true_eq]; omega) entries
  exact hsorted.imp of_decide_eq_true

/-- Sorting the places of nodes gives the nodes in their order. -/
theorem SortsByRank.eq_zipIdx {order : List S} {sorted : List (S × Nat)}
    (hsorts : SortsByRank order.zipIdx sorted) : sorted = order.zipIdx := by
  have hrises : order.zipIdx.Pairwise fun first second => first.2 ≤ second.2 := by
    have hplaces : (order.zipIdx.map Prod.snd).Pairwise (· < ·) := by
      rw [List.zipIdx_map_snd]
      exact List.pairwise_lt_range' ..
    exact (List.pairwise_map.mp hplaces).imp Nat.le_of_lt
  refine List.Perm.eq_of_pairwise ?_ hsorts.2 hrises hsorts.1
  -- one place holds one node
  rintro ⟨node, place⟩ ⟨other, otherPlace⟩ hnode hother hle hge
  obtain rfl : place = otherPlace := Nat.le_antisymm hle hge
  have hfound := List.mk_mem_zipIdx_iff_getElem?.mp (hsorts.1.mem_iff.mp hnode)
  rw [List.mk_mem_zipIdx_iff_getElem?.mp hother] at hfound
  rw [Option.some.inj hfound]

variable [BEq S] [Hashable S] [LawfulBEq S]

omit [Hashable S] in
theorem nodup_of_distinct_keys {entries : List (S × Nat)}
    (hdistinct : entries.Pairwise fun first second => (first.1 == second.1) = false) :
    entries.Nodup := by
  refine hdistinct.imp ?_
  rintro first _ hne rfl
  exact beq_eq_false_iff_ne.mp hne rfl

/-- The entries of a table of places are the places of the nodes, in some order. -/
theorem toList_ranks_perm {order : List S} (hnodup : order.Nodup) :
    (ranks order).toList.Perm order.zipIdx := by
  have htable := nodup_of_distinct_keys (Std.HashMap.distinct_keys_toList (m := ranks order))
  have hplaces := nodup_of_distinct_keys (pairwise_zipIdx hnodup)
  rw [List.perm_ext_iff_of_nodup htable hplaces]
  rintro ⟨node, place⟩
  rw [Std.HashMap.mem_toList_iff_getElem?_eq_some, getElem?_ranks hnodup,
    List.mk_mem_zipIdx_iff_getElem?]
  constructor
  · intro hrank
    obtain ⟨hmem, hplace⟩ := Option.ite_none_right_eq_some.mp hrank
    obtain rfl := Option.some.inj hplace
    rw [List.getElem?_eq_getElem (List.idxOf_lt_length_of_mem hmem), List.getElem_idxOf]
  · intro hplace
    obtain ⟨hlt, rfl⟩ := List.getElem?_eq_some_iff.mp hplace
    rw [if_pos (List.getElem_mem hlt), hnodup.idxOf_getElem place hlt]

/-- **However a table of places is enumerated, sorting gives the nodes in their order.** -/
theorem SortsByRank.eq_of_ranks {order : List S} (hnodup : order.Nodup)
    {entries sorted : List (S × Nat)} (hentries : entries.Perm (ranks order).toList)
    (hsorts : SortsByRank entries sorted) : sorted = order.zipIdx :=
  SortsByRank.eq_zipIdx
    ⟨hsorts.1.trans (hentries.trans (toList_ranks_perm hnodup)), hsorts.2⟩

end DepthFirst

open DepthFirst (rankBy rankings SortsByRank)

namespace DependencyGraph

variable {S : Type} [BEq S] [Hashable S] [LawfulBEq S]

/-- The graph with the edges and the entries that are in scope. -/
def restricted (graph : DependencyGraph S) (scope : Scope) : DependencyGraph S :=
  { graph with
    successors := graph.scopedSuccessors scope
    entries := graph.scopedEntries scope }

/-- The two rank tables of the part in scope. -/
def scopedRanks (graph : DependencyGraph S) (scope : Scope) : DepthFirst.Ranks S :=
  rankings (graph.scopedSuccessors scope) (graph.scopedEntries scope)

/-- The canonical graph that is made from two rank tables: vertices from a list of the
entries of the one, edges from a list of the entries of the other. -/
def assemble (graph : DependencyGraph S) (scope : Scope) (policy : BackEdgePolicy)
    (labeler : Labeler S) (byDiscover byFinish : List (S × Nat)) : CanonicalGraph :=
  let ranks := graph.scopedRanks scope
  let (back, kept) := ((graph.restricted scope).dependences (byFinish.map Prod.fst) ranks).partition
    (Dependence.dropped graph policy)
  { vertices := byDiscover.map fun (s, rank) => graph.canonicalVertex s rank
    edges := kept.map (Dependence.canonical graph labeler)
    stats :=
      { statements := graph.statements.length
        applicationStatements := (graph.inScope scope).size
        reached := ranks.discover.size
        keptEdges := kept.length
        backEdges := back.length } }

theorem filter_inScope_eq (graph : DependencyGraph S) (scope : Scope) (statements : List S) :
    statements.filter (· ∈ graph.inScope scope) =
      statements.filter fun statement => graph.InScope scope statement := by
  refine List.filter_congr fun statement _ => decide_eq_decide.mpr ?_
  exact Set.ext_iff.mp (graph.whites_inScope scope) statement

/-- The two searches through the part in scope rank as the one search of the graph does. -/
theorem scopedRanks_eq (graph : DependencyGraph S) (scope : Scope) :
    graph.scopedRanks scope = (graph.traversal scope).ranks := by
  have hrank := fun order => @DepthFirst.rankBy_filter_white _ _ _ _ graph.successors
    graph.entries order (graph.inScope scope)
  simp only [filter_inScope_eq] at hrank
  rw [scopedRanks, rankings]
  exact congrArg₂ DepthFirst.Ranks.mk (hrank .discover) (hrank .finish)

/-- Edges that leave the scope have no rank at their end, so leaving them out makes no
difference. -/
theorem Searched.dependences_restricted {graph : DependencyGraph S} {scope : Scope}
    {forest : Forest S} (hsearched : graph.Searched scope forest) (statements : List S) :
    (graph.restricted scope).dependences statements (graph.traversal scope).ranks =
      graph.dependences statements (graph.traversal scope).ranks := by
  unfold dependences
  refine List.flatMap_congr fun source _ => ?_
  simp only [restricted, scopedSuccessors, List.filterMap_filter]
  refine List.filterMap_congr fun target _ => ?_
  by_cases hscope : graph.InScope scope target
  · simp [hscope]
  · have htarget : target ∉ forest := fun hmem => hscope (hsearched.inScope_of_mem hmem)
    have hnone : (graph.traversal scope).ranks.interval? target = none := by
      rw [hsearched.interval?_eq, if_neg htarget]
    simp [hscope, hnone]

/-- **The canonical graph does not depend on how rank tables are enumerated.**  Whatever
lists the entries of the two tables come in, and whatever sorting by rank makes of entries
that it cannot tell apart, the sorted lists are the two orders of the search.  So the
canonical graph that is made from them is the same one, and the vertex at a place has this
place for its id. -/
theorem assemble_eq_canonicalize (graph : DependencyGraph S) (scope : Scope)
    (policy : BackEdgePolicy) (labeler : Labeler S)
    (vertexEntries edgeEntries byDiscover byFinish : List (S × Nat))
    (hvertices : vertexEntries.Perm (graph.scopedRanks scope).discover.toList)
    (hbyDiscover : SortsByRank vertexEntries byDiscover)
    (hedges : edgeEntries.Perm (graph.scopedRanks scope).finish.toList)
    (hbyFinish : SortsByRank edgeEntries byFinish) :
    let result := graph.assemble scope policy labeler byDiscover byFinish
    byDiscover = (graph.traversal scope).discovered.zipIdx ∧
      byFinish = (graph.traversal scope).finished.zipIdx ∧
      result = graph.canonicalize scope policy labeler ∧
      ∀ (id : Nat) (vertex : CanonicalVertex), result.vertices[id]? = some vertex →
        vertex.id = id := by
  intro result
  obtain ⟨forest, hsearched⟩ := graph.exists_searched scope
  have hdistinct := hsearched.grows.distinct
  have hdiscovered : byDiscover = (graph.traversal scope).discovered.zipIdx := by
    rw [scopedRanks_eq] at hvertices
    rw [hsearched.traversal_eq] at hvertices ⊢
    exact hbyDiscover.eq_of_ranks hdistinct hvertices
  have hfinished : byFinish = (graph.traversal scope).finished.zipIdx := by
    rw [scopedRanks_eq] at hedges
    rw [hsearched.traversal_eq] at hedges ⊢
    exact hbyFinish.eq_of_ranks hdistinct.nodup_postorder hedges
  have hresult : result = graph.canonicalize scope policy labeler := by
    have hsize : (graph.traversal scope).ranks.discover.size =
        (graph.traversal scope).discovered.length := by
      rw [hsearched.traversal_eq]
      exact (Std.HashMap.size_ofList (DepthFirst.pairwise_zipIdx hdistinct)).trans
        (List.length_zipIdx ..)
    simp only [result, assemble, canonicalize, hdiscovered, hfinished, scopedRanks_eq, hsize,
      List.zipIdx_map_fst, hsearched.dependences_restricted]
  refine ⟨hdiscovered, hfinished, hresult, fun id vertex hvertex => ?_⟩
  rw [hresult, hsearched.getElem?_vertices] at hvertex
  obtain ⟨statement, -, rfl⟩ := Option.map_eq_some_iff.mp hvertex
  rfl

/-- The tables of the loop, one of them enumerated from its end. -/
theorem assemble_tangle :
    let ranks := tangle.scopedRanks fun _ => true
    let byDiscover := DepthFirst.sortByRank ranks.discover.toList.reverse
    let byFinish := DepthFirst.sortByRank ranks.finish.toList
    byDiscover = [(0, 0), (1, 1), (2, 2), (3, 3)] ∧
      byFinish = [(2, 0), (1, 1), (0, 2), (3, 3)] ∧
      tangle.assemble (fun _ => true) .sameMethod tangle.dependence byDiscover byFinish =
        tangle.canonicalize (fun _ => true) .sameMethod tangle.dependence := by
  intro ranks byDiscover byFinish
  obtain ⟨hdiscover, hfinish, hresult, -⟩ := assemble_eq_canonicalize tangle (fun _ => true)
    .sameMethod tangle.dependence ranks.discover.toList.reverse ranks.finish.toList
    byDiscover byFinish (List.reverse_perm _) (DepthFirst.sortsByRank_sortByRank _)
    (List.Perm.refl _) (DepthFirst.sortsByRank_sortByRank _)
  rw [traversal_tangle] at hdiscover hfinish
  exact ⟨hdiscover, hfinish, hresult⟩

end DependencyGraph

end ProgramGraphs
