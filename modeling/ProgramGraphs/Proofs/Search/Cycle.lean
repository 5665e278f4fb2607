import ProgramGraphs.Search.Cycle
import ProgramGraphs.Proofs.Search.Ranks

/-!
# The cycle test finds exactly the cycles

`hasCycle?` searches from every vertex and looks for an edge whose target is
not finished before its source.  `exists_hasCycle?` says that its answer is
right whenever it gives one, and that it gives one when every edge runs between
vertices.

An edge whose target is finished no earlier leads up the forest, and the forest
leads back down to its source.  Without such an edge the finish rank falls
along every edge, so no walk comes back to where it began.
-/

namespace ProgramGraphs

/-- Some vertex is reached from itself by at least one step. -/
def Cyclic {V : Type} (step : V → V → Prop) : Prop :=
  ∃ vertex, Relation.TransGen step vertex vertex

/-- A number that falls along every step rules cycles out. -/
theorem not_cyclic_of_rank {V : Type} {step : V → V → Prop} (rank : V → Nat)
    (hrank : ∀ source target, step source target → rank target < rank source) :
    ¬ Cyclic step := by
  rintro ⟨vertex, hwalk⟩
  have hfalls : ∀ source target, Relation.TransGen step source target →
      rank target < rank source := by
    intro source target hwalk
    induction hwalk with
    | single hstep => exact hrank _ _ hstep
    | tail _ hstep ih => exact (hrank _ _ hstep).trans ih
  exact absurd (hfalls vertex vertex hwalk) (Nat.lt_irrefl _)

namespace Search

theorem getElem?_adjacency (size : Nat) (edges : List (Nat × Nat)) {source : Nat}
    (hsource : source < size) :
    (adjacency size edges)[source]? =
      some ((edges.filter fun edge => edge.1 = source).map Prod.snd) := by
  induction edges with
  | nil => simp [adjacency, hsource]
  | cons edge edges ih =>
      show ((adjacency size edges).modify edge.1 (edge.2 :: ·))[source]? = _
      rw [Array.getElem?_modify, ih]
      by_cases hedge : edge.1 = source
      · simp [hedge]
      · simp [hedge]

theorem mem_adjacency {size source target : Nat} {edges : List (Nat × Nat)}
    (hsource : source < size) :
    target ∈ (adjacency size edges).getD source [] ↔ (source, target) ∈ edges := by
  rw [Array.getD_eq_getD_getElem?, getElem?_adjacency size edges hsource]
  simp

section Forest

/-- A forest that the cycle test grows. -/
abbrev GrowsFromAll (size : Nat) (edges : List (Nat × Nat)) (forest : Forest Nat) : Prop :=
  Grows (fun vertex => (adjacency size edges).getD vertex [])
    (DepthFirst.whites (Std.HashSet.ofList (List.range size))) (List.range size) forest

variable {size : Nat} {edges : List (Nat × Nat)} {forest : Forest Nat}

/-- Every vertex is in the forest of a search from all of them. -/
theorem GrowsFromAll.mem_iff (hgrows : GrowsFromAll size edges forest) {vertex : Nat} :
    vertex ∈ forest ↔ vertex < size := by
  constructor
  · intro hmem
    simpa [DepthFirst.whites] using hgrows.mem_white hmem
  · intro hlt
    exact hgrows.mem_of_pending (List.mem_range.mpr hlt) (by simpa [DepthFirst.whites] using hlt)

/-- An edge whose target is finished no earlier than its source closes a cycle. -/
theorem GrowsFromAll.cyclic_of_edge (hgrows : GrowsFromAll size edges forest)
    {source target : Nat} (hedge : (source, target) ∈ edges) (hsource : source < size)
    (htarget : target < size)
    (hle : forest.postorder.idxOf source ≤ forest.postorder.idxOf target) :
    Cyclic fun source target => (source, target) ∈ edges := by
  have hunder : forest.Under source target := by
    have hwhite := hgrows.mem_white ((GrowsFromAll.mem_iff hgrows).mpr htarget)
    rcases hgrows.under_or_finished_before ((GrowsFromAll.mem_iff hgrows).mpr hsource)
      ((mem_adjacency hsource).mpr hedge) hwhite with hunder | hlt
    · exact hunder
    · exact absurd hle (Nat.not_le.mpr hlt)
  have hpath : Relation.ReflTransGen (fun source target => (source, target) ∈ edges)
      target source :=
    Relation.ReflTransGen.mono (fun parent _ hleads =>
      (mem_adjacency ((GrowsFromAll.mem_iff hgrows).mp hleads.2.1.mem.2)).mp hleads.1) _ _
      (hgrows.path_of_under hunder)
  exact ⟨source, Relation.TransGen.head' hedge hpath⟩

end Forest

/-- The cycle test answers when all ends of edges are vertices, and its answer
says whether the edges contain a cycle. -/
theorem exists_hasCycle? {size : Nat} {edges : List (Nat × Nat)}
    (hrange : ∀ edge ∈ edges, edge.1 < size ∧ edge.2 < size) :
    ∃ answer, hasCycle? size edges = some answer ∧
      (answer = true ↔ Cyclic fun source target => (source, target) ∈ edges) := by
  obtain ⟨forest, hgrows, hsearch⟩ := DepthFirst.search_grows
    (Std.HashSet.ofList (List.range size)) (fun vertex => (adjacency size edges).getD vertex [])
    (List.range size)
  have hall : (edges.all fun edge => edge.1 < size && edge.2 < size) = true := by
    simpa using fun source target hedge => hrange (source, target) hedge
  have hfinish : ∀ vertex < size, (DepthFirst.ranks forest.postorder).getD vertex 0 =
      forest.postorder.idxOf vertex := by
    intro vertex hlt
    have hmem : vertex ∈ forest.postorder :=
      Forest.mem_postorder.mpr ((GrowsFromAll.mem_iff hgrows).mpr hlt)
    rw [Std.HashMap.getD_eq_getD_getElem?,
      DepthFirst.getElem?_ranks hgrows.distinct.nodup_postorder, if_pos hmem, Option.getD_some]
  have hanswer : hasCycle? size edges = some (edges.any fun edge =>
      (DepthFirst.ranks forest.postorder).getD edge.1 0 ≤
        (DepthFirst.ranks forest.postorder).getD edge.2 0) := by
    simp only [hasCycle?, if_pos hall, hsearch]
  refine ⟨_, hanswer, ?_⟩
  simp only [List.any_eq_true, decide_eq_true_eq]
  constructor
  · rintro ⟨⟨source, target⟩, hedge, hle⟩
    obtain ⟨hsource, htarget⟩ := hrange _ hedge
    rw [hfinish source hsource, hfinish target htarget] at hle
    exact GrowsFromAll.cyclic_of_edge hgrows hedge hsource htarget hle
  · -- no such edge: the finish rank falls along all of them
    intro hcyclic
    by_contra hnone
    push Not at hnone
    refine not_cyclic_of_rank forest.postorder.idxOf (fun source target hedge => ?_) hcyclic
    obtain ⟨hsource, htarget⟩ := hrange _ hedge
    have hlt := hnone _ hedge
    rwa [hfinish source hsource, hfinish target htarget] at hlt

end Search

end ProgramGraphs
