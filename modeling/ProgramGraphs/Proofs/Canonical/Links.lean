import ProgramGraphs.Proofs.Canonical.Reached

/-!
# The edges of a canonical graph

A *link* is an edge of the dependency graph between two reached statements.
The links are listed as the canonical graph visits them, by the finish rank of
their source and then in the order of its successors, with repetitions.  A link
is either emitted, under the numbers of its ends, or dropped and counted
(`edges_eq`, `backEdges_eq`); it is dropped only when its source lies under its
target in the forest of the search (`drops_iff`).  Where the two orders of the
search are known, so are the edges (`edges_of_traversal`).
-/

namespace ProgramGraphs

theorem pairwise_idxOf {A : Type} [BEq A] [LawfulBEq A] {list : List A} (hnodup : list.Nodup) :
    list.Pairwise fun first second => list.idxOf first < list.idxOf second := by
  rw [List.pairwise_iff_getElem]
  intro i j hi hj hlt
  rwa [hnodup.idxOf_getElem, hnodup.idxOf_getElem]

namespace CanonicalGraph

/-- An edge runs from the first id to the second. -/
def Adjacent (graph : CanonicalGraph) (source target : Nat) : Prop :=
  ∃ edge ∈ graph.edges, edge.source = source ∧ edge.target = target

theorem hasEdge_iff {graph : CanonicalGraph} {source target : Nat} :
    graph.hasEdge source target = true ↔ graph.Adjacent source target := by
  simp [hasEdge, Adjacent]

end CanonicalGraph

/-- What the search says about an edge between two nodes of its forest. -/
def Forest.dependence {S : Type} [BEq S] (forest : Forest S) (link : S × S) : Dependence S :=
  ⟨link.1, link.2, forest.interval link.1, forest.interval link.2⟩

namespace DependencyGraph

variable {S : Type} [BEq S] [Hashable S] [LawfulBEq S]

/-- The edges between reached statements, by the finish rank of their source. -/
def links (graph : DependencyGraph S) (scope : Scope) : List (S × S) :=
  (graph.traversal scope).finished.flatMap fun source =>
    ((graph.successors source).filter (graph.traversal scope).discovered.contains).map
      fun target => (source, target)

/-- Whether a policy drops a link between two nodes of the forest. -/
def drops (graph : DependencyGraph S) (policy : BackEdgePolicy) (forest : Forest S)
    (link : S × S) : Bool :=
  Dependence.dropped graph policy (forest.dependence link)

/-- The links that a policy does not drop. -/
def keptLinks (graph : DependencyGraph S) (scope : Scope) (policy : BackEdgePolicy)
    (forest : Forest S) : List (S × S) :=
  (graph.links scope).filter fun link => !graph.drops policy forest link

/-- The edge that a link becomes. -/
def canonicalLink (graph : DependencyGraph S) (scope : Scope) (labeler : Labeler S)
    (link : S × S) : CanonicalEdge :=
  { source := graph.number scope link.1
    target := graph.number scope link.2
    edgeType := labeler link.1 link.2
    context := graph.context link.1 link.2 }

omit [Hashable S] [LawfulBEq S] in
theorem drops_iff {graph : DependencyGraph S} {policy : BackEdgePolicy} {forest : Forest S}
    {source target : S} :
    graph.drops policy forest (source, target) = true ↔
      forest.Nested source target ∧ (policy = .sameMethod →
        (graph.info source).method = (graph.info target).method ∧
          (graph.info source).declaringClass.name = (graph.info target).declaringClass.name) := by
  cases policy with
  | anyNested =>
      rw [drops, Dependence.dropped, decide_eq_true_eq]
      exact ⟨fun hnested => ⟨hnested, nofun⟩, And.left⟩
  | sameMethod =>
      rw [drops, Dependence.dropped, Bool.and_eq_true, decide_eq_true_eq, decide_eq_true_eq]
      exact ⟨fun ⟨hnested, hsame⟩ => ⟨hnested, fun _ => hsame⟩,
        fun ⟨hnested, hsame⟩ => ⟨hnested, hsame rfl⟩⟩

theorem reached_eq (graph : DependencyGraph S) (scope : Scope) (policy : BackEdgePolicy)
    (labeler : Labeler S) :
    (graph.canonicalize scope policy labeler).stats.reached =
      (graph.canonicalize scope policy labeler).vertices.length := by
  simp [canonicalize]

theorem keptEdges_eq (graph : DependencyGraph S) (scope : Scope) (policy : BackEdgePolicy)
    (labeler : Labeler S) :
    (graph.canonicalize scope policy labeler).stats.keptEdges =
      (graph.canonicalize scope policy labeler).edges.length := by
  simp [canonicalize]

namespace Searched

variable {graph : DependencyGraph S} {scope : Scope} {forest : Forest S}

theorem links_eq (hsearched : graph.Searched scope forest) :
    graph.links scope = forest.postorder.flatMap fun source =>
      ((graph.successors source).filter (· ∈ forest)).map fun target => (source, target) := by
  have hreached : (graph.traversal scope).discovered.contains =
      fun node => decide (node ∈ forest) := by
    funext node
    rw [hsearched.traversal_eq]
    exact Bool.eq_iff_iff.mpr (by simp)
  rw [links, hreached, hsearched.traversal_eq]

theorem mem_links (hsearched : graph.Searched scope forest) {source target : S} :
    (source, target) ∈ graph.links scope ↔
      source ∈ forest ∧ target ∈ graph.successors source ∧ target ∈ forest := by
  rw [hsearched.links_eq]
  simp only [List.mem_flatMap, Forest.mem_postorder, List.mem_map, List.mem_filter,
    decide_eq_true_eq, Prod.mk.injEq]
  constructor
  · rintro ⟨node, hnode, next, hnext, rfl, rfl⟩
    exact ⟨hnode, hnext⟩
  · rintro ⟨hsource, htarget⟩
    exact ⟨source, hsource, target, htarget, rfl, rfl⟩

theorem mem_links_of_reachable (hsearched : graph.Searched scope forest) {source target : S}
    (hsource : graph.Reachable scope source) (hnext : target ∈ graph.successors source)
    (htarget : graph.Reachable scope target) : (source, target) ∈ graph.links scope :=
  hsearched.mem_links.mpr
    ⟨hsearched.mem_iff.mpr hsource, hnext, hsearched.mem_iff.mpr htarget⟩

/-- Links are listed by the finish rank of their source, and those of one source
in the order of its successors. -/
theorem pairwise_links (hsearched : graph.Searched scope forest) (order : S → S → S → Prop)
    (horder : ∀ source, (graph.successors source).Pairwise (order source)) :
    (graph.links scope).Pairwise fun first second =>
      forest.postorder.idxOf first.1 < forest.postorder.idxOf second.1 ∨
        first.1 = second.1 ∧ order first.1 first.2 second.2 := by
  rw [hsearched.links_eq, List.pairwise_flatMap]
  constructor
  · intro source _
    rw [List.pairwise_map]
    exact ((horder source).filter _).imp fun htargets => Or.inr ⟨rfl, htargets⟩
  · refine (pairwise_idxOf hsearched.grows.distinct.nodup_postorder).imp ?_
    intro first second hlt x hx y hy
    obtain ⟨_, -, rfl⟩ := List.mem_map.mp hx
    obtain ⟨_, -, rfl⟩ := List.mem_map.mp hy
    exact Or.inl hlt

/-- The ranks of both ends of a link are those of the forest. -/
theorem dependences_eq (hsearched : graph.Searched scope forest) :
    graph.dependences (graph.traversal scope).finished (graph.traversal scope).ranks =
      (graph.links scope).map forest.dependence := by
  rw [hsearched.links_eq, hsearched.traversal_eq, dependences, List.map_flatMap]
  refine List.flatMap_congr fun source hsource => ?_
  rw [List.map_map, ← List.filterMap_eq_map, List.filterMap_filter]
  refine congrArg (fun keep => List.filterMap keep (graph.successors source)) ?_
  funext target
  rw [DepthFirst.interval?_eq hsearched.grows.distinct,
    DepthFirst.interval?_eq hsearched.grows.distinct, if_pos (Forest.mem_postorder.mp hsource)]
  by_cases htarget : target ∈ forest
  · simp only [htarget, if_pos, decide_true]
    rfl
  · simp only [htarget, decide_false]
    rfl

/-! ## Emitted and dropped links -/

theorem edges_eq (hsearched : graph.Searched scope forest) (policy : BackEdgePolicy)
    (labeler : Labeler S) :
    (graph.canonicalize scope policy labeler).edges =
      (graph.keptLinks scope policy forest).map (graph.canonicalLink scope labeler) := by
  simp only [canonicalize, keptLinks, hsearched.dependences_eq, List.partition_eq_filter_filter,
    List.filter_map, List.map_map]
  refine List.map_congr_left fun link _ => ?_
  rw [canonicalLink, hsearched.number_eq, hsearched.number_eq]
  rfl

theorem backEdges_eq (hsearched : graph.Searched scope forest) (policy : BackEdgePolicy)
    (labeler : Labeler S) :
    (graph.canonicalize scope policy labeler).stats.backEdges =
      ((graph.links scope).filter (graph.drops policy forest)).length := by
  simp only [canonicalize, hsearched.dependences_eq, List.partition_eq_filter_filter,
    List.filter_map, List.length_map]
  rfl

theorem mem_keptLinks {policy : BackEdgePolicy} {link : S × S} :
    link ∈ graph.keptLinks scope policy forest ↔
      link ∈ graph.links scope ∧ graph.drops policy forest link = false := by
  rw [keptLinks, List.mem_filter, Bool.not_eq_true']

theorem mem_edges_iff (hsearched : graph.Searched scope forest) {policy : BackEdgePolicy}
    {labeler : Labeler S} {edge : CanonicalEdge} :
    edge ∈ (graph.canonicalize scope policy labeler).edges ↔
      ∃ link ∈ graph.links scope, graph.drops policy forest link = false ∧
        edge = graph.canonicalLink scope labeler link := by
  rw [hsearched.edges_eq, List.mem_map]
  constructor
  · rintro ⟨link, hlink, rfl⟩
    obtain ⟨hlink, hkept⟩ := mem_keptLinks.mp hlink
    exact ⟨link, hlink, hkept, rfl⟩
  · rintro ⟨link, hlink, hkept, rfl⟩
    exact ⟨link, mem_keptLinks.mpr ⟨hlink, hkept⟩, rfl⟩

/-- The edges of different links differ. -/
theorem canonicalLink_inj (hsearched : graph.Searched scope forest) {labeler : Labeler S}
    {first second : S × S} (hlink : first ∈ graph.links scope) :
    graph.canonicalLink scope labeler first = graph.canonicalLink scope labeler second ↔
      first = second := by
  obtain ⟨hsource, -, htarget⟩ := hsearched.mem_links.mp hlink
  constructor
  · intro heq
    exact Prod.ext ((hsearched.number_inj hsource).mp (congrArg CanonicalEdge.source heq))
      ((hsearched.number_inj htarget).mp (congrArg CanonicalEdge.target heq))
  · rintro rfl
    rfl

/-- A link is emitted exactly when it is not dropped. -/
theorem adjacent_iff (hsearched : graph.Searched scope forest) {policy : BackEdgePolicy}
    {labeler : Labeler S} {source target : S} (hlink : (source, target) ∈ graph.links scope) :
    (graph.canonicalize scope policy labeler).Adjacent (graph.number scope source)
      (graph.number scope target) ↔ graph.drops policy forest (source, target) = false := by
  obtain ⟨hsource, -, htarget⟩ := hsearched.mem_links.mp hlink
  constructor
  · rintro ⟨edge, hedge, heqSource, heqTarget⟩
    obtain ⟨⟨source', target'⟩, hlink', hkept, rfl⟩ := hsearched.mem_edges_iff.mp hedge
    obtain ⟨hsource', -, htarget'⟩ := hsearched.mem_links.mp hlink'
    obtain rfl := (hsearched.number_inj hsource').mp heqSource
    obtain rfl := (hsearched.number_inj htarget').mp heqTarget
    exact hkept
  · intro hkept
    exact ⟨_, hsearched.mem_edges_iff.mpr ⟨_, hlink, hkept, rfl⟩, rfl, rfl⟩

theorem hasEdge_eq (hsearched : graph.Searched scope forest) (policy : BackEdgePolicy)
    (labeler : Labeler S) {link : S × S} (hlink : link ∈ graph.links scope) :
    (graph.canonicalize scope policy labeler).hasEdge (graph.number scope link.1)
      (graph.number scope link.2) = !graph.drops policy forest link := by
  rw [Bool.eq_iff_iff, CanonicalGraph.hasEdge_iff, hsearched.adjacent_iff hlink, Bool.not_eq_true']

/-- The back edges are the links that are not emitted. -/
theorem backEdges_eq_length (hsearched : graph.Searched scope forest) (policy : BackEdgePolicy)
    (labeler : Labeler S) :
    (graph.canonicalize scope policy labeler).stats.backEdges =
      ((graph.links scope).filter fun link => !(graph.canonicalize scope policy labeler).hasEdge
        (graph.number scope link.1) (graph.number scope link.2)).length := by
  rw [hsearched.backEdges_eq]
  refine congrArg List.length (List.filter_congr fun link hlink => ?_)
  rw [hsearched.hasEdge_eq policy labeler hlink, Bool.not_not]

end Searched

/-- The edges, read off the two orders of the search. -/
theorem edges_of_traversal {graph : DependencyGraph S} {scope : Scope}
    {discovered finished : List S} (htraversal : graph.traversal scope = ⟨discovered, finished⟩)
    (policy : BackEdgePolicy) (labeler : Labeler S) :
    let interval := fun statement =>
      (⟨discovered.idxOf statement, finished.idxOf statement⟩ : DepthFirst.Interval)
    let links := finished.flatMap fun source =>
      ((graph.successors source).filter discovered.contains).map fun target => (source, target)
    (graph.canonicalize scope policy labeler).edges =
      (links.filter fun link => !Dependence.dropped graph policy
        ⟨link.1, link.2, interval link.1, interval link.2⟩).map fun link =>
          { source := discovered.idxOf link.1
            target := discovered.idxOf link.2
            edgeType := labeler link.1 link.2
            context := graph.context link.1 link.2 } := by
  intro interval links
  obtain ⟨forest, hsearched⟩ := graph.exists_searched scope
  obtain ⟨rfl, rfl⟩ :=
    DepthFirst.Traversal.mk.inj (hsearched.traversal_eq.symm.trans htraversal)
  have hlinks : graph.links scope = links := by rw [DependencyGraph.links, htraversal]
  rw [hsearched.edges_eq, keptLinks, hlinks]
  refine List.map_congr_left fun link _ => ?_
  rw [canonicalLink, hsearched.number_eq, hsearched.number_eq]

end DependencyGraph

end ProgramGraphs
