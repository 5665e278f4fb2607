import ProgramGraphs.Proofs.Canonical.Cycles

/-!
# Canonical graphs without nested edges have no cycle

When every nested edge is dropped, the finish rank falls along each edge that
is emitted (`Searched.finish_lt`).  So there is no cycle, and since edges are
listed by the finish rank of their source, an edge stands after those that
leave its target.

Nothing is dropped that could stay.  An edge is dropped only when its source
lies under its target, and the edges of the forest that lead from the target
down to the source are never nested themselves, so they are emitted
(`Searched.path_of_nested`): every dropped edge would close a cycle.
-/

namespace ProgramGraphs.DependencyGraph

variable {S : Type} [BEq S] [Hashable S] [LawfulBEq S]

namespace Searched

variable {graph : DependencyGraph S} {scope : Scope} {forest : Forest S}

/-! ## The finish rank falls -/

/-- A link that is not nested leads to a statement that is finished earlier. -/
theorem finish_lt (hsearched : graph.Searched scope forest) {source target : S}
    (hlink : (source, target) ∈ graph.links scope)
    (hkept : graph.drops .anyNested forest (source, target) = false) :
    forest.postorder.idxOf target < forest.postorder.idxOf source := by
  obtain ⟨hsource, hnext, htarget⟩ := hsearched.mem_links.mp hlink
  rcases hsearched.grows.under_or_finished_before hsource hnext
    (hsearched.inScope_of_mem htarget) with hunder | hlt
  · have hnested := (Forest.under_iff_nested hsearched.grows.distinct hsource htarget).mp hunder
    have hdropped : graph.drops .anyNested forest (source, target) = true :=
      drops_iff.mpr ⟨hnested, nofun⟩
    exact absurd hdropped (by simp [hkept])
  · exact hlt

/-- Links that are listed later have sources that are finished later. -/
theorem finish_le (hsearched : graph.Searched scope forest) {policy : BackEdgePolicy} {i j : Nat}
    {first second : S × S} (hfirst : (graph.keptLinks scope policy forest)[i]? = some first)
    (hsecond : (graph.keptLinks scope policy forest)[j]? = some second) (hle : i ≤ j) :
    forest.postorder.idxOf first.1 ≤ forest.postorder.idxOf second.1 := by
  have hsorted := (hsearched.pairwise_links (fun _ _ _ => True)
    fun _ => List.pairwise_of_forall fun _ _ => trivial).filter
      fun link => !graph.drops policy forest link
  obtain ⟨hi, rfl⟩ := List.getElem?_eq_some_iff.mp hfirst
  obtain ⟨hj, rfl⟩ := List.getElem?_eq_some_iff.mp hsecond
  rcases Nat.lt_or_eq_of_le hle with hlt | rfl
  · rcases List.pairwise_iff_getElem.mp hsorted i j hi hj hlt with hrises | ⟨heq, -⟩
    · exact Nat.le_of_lt hrises
    · exact Nat.le_of_eq (congrArg (forest.postorder.idxOf ·) heq)
  · exact Nat.le_refl _

/-- The edge at a place is that of the kept link at this place. -/
theorem getElem?_edges (hsearched : graph.Searched scope forest) (policy : BackEdgePolicy)
    (labeler : Labeler S) (i : Nat) :
    (graph.canonicalize scope policy labeler).edges[i]? =
      (graph.keptLinks scope policy forest)[i]?.map (graph.canonicalLink scope labeler) := by
  rw [hsearched.edges_eq, List.getElem?_map]

/-- An edge that leaves the target of another one is listed before it. -/
theorem place_lt (hsearched : graph.Searched scope forest) {labeler : Labeler S} {i j : Nat}
    {first second : CanonicalEdge}
    (hfirst : (graph.canonicalize scope .anyNested labeler).edges[i]? = some first)
    (hsecond : (graph.canonicalize scope .anyNested labeler).edges[j]? = some second)
    (hmeet : first.target = second.source) : j < i := by
  rw [hsearched.getElem?_edges, Option.map_eq_some_iff] at hfirst hsecond
  obtain ⟨⟨source, middle⟩, hfirst, rfl⟩ := hfirst
  obtain ⟨⟨source', target⟩, hsecond, rfl⟩ := hsecond
  obtain ⟨hlink, hkept⟩ := mem_keptLinks.mp (List.mem_of_getElem? hfirst)
  obtain ⟨-, -, hmiddle⟩ := hsearched.mem_links.mp hlink
  obtain rfl := (hsearched.number_inj hmiddle).mp hmeet
  -- listed later, its source would be finished no earlier than that of the first
  by_contra hle
  have hrises := hsearched.finish_le hfirst hsecond (Nat.not_lt.mp hle)
  exact absurd (hsearched.finish_lt hlink hkept) (Nat.not_lt.mpr hrises)

theorem not_cyclic (hsearched : graph.Searched scope forest) (labeler : Labeler S) :
    ¬ Cyclic (graph.canonicalize scope .anyNested labeler).Adjacent := by
  refine not_cyclic_of_rank
    (fun id => (forest.preorder[id]?.map forest.postorder.idxOf).getD 0) ?_
  have hrank : ∀ statement ∈ forest,
      (forest.preorder[graph.number scope statement]?.map forest.postorder.idxOf).getD 0 =
        forest.postorder.idxOf statement := by
    intro statement hmem
    have hlt := List.idxOf_lt_length_of_mem (Forest.mem_preorder.mpr hmem)
    rw [hsearched.number_eq, List.getElem?_eq_getElem hlt, List.getElem_idxOf hlt]
    rfl
  rintro _ _ ⟨edge, hedge, rfl, rfl⟩
  obtain ⟨⟨source, target⟩, hlink, hkept, rfl⟩ := hsearched.mem_edges_iff.mp hedge
  obtain ⟨hsource, -, htarget⟩ := hsearched.mem_links.mp hlink
  show (forest.preorder[graph.number scope target]?.map _).getD 0 <
    (forest.preorder[graph.number scope source]?.map _).getD 0
  rw [hrank source hsource, hrank target htarget]
  exact hsearched.finish_lt hlink hkept

/-- Both ends of every edge are vertices. -/
theorem ends_lt (hsearched : graph.Searched scope forest) {policy : BackEdgePolicy}
    {labeler : Labeler S} {edge : CanonicalEdge}
    (hedge : edge ∈ (graph.canonicalize scope policy labeler).edges) :
    edge.source < (graph.canonicalize scope policy labeler).vertices.length ∧
      edge.target < (graph.canonicalize scope policy labeler).vertices.length := by
  obtain ⟨⟨source, target⟩, hlink, -, rfl⟩ := hsearched.mem_edges_iff.mp hedge
  obtain ⟨hsource, -, htarget⟩ := hsearched.mem_links.mp hlink
  rw [hsearched.length_vertices, canonicalLink, hsearched.number_eq, hsearched.number_eq]
  exact ⟨Forest.idxOf_preorder_lt hsource, Forest.idxOf_preorder_lt htarget⟩

theorem hasCycle?_eq (hsearched : graph.Searched scope forest) (policy : BackEdgePolicy)
    (labeler : Labeler S) :
    ∃ answer, (graph.canonicalize scope policy labeler).hasCycle? = some answer ∧
      (answer = true ↔ Cyclic (graph.canonicalize scope policy labeler).Adjacent) := by
  have hsome : (graph.canonicalize scope policy labeler).hasCycle? ≠ none := by
    rw [Ne, CanonicalGraph.hasCycle?_eq_none_iff]
    rintro ⟨edge, hedge, hends⟩
    have hlt := hsearched.ends_lt hedge
    omega
  obtain ⟨answer, hanswer⟩ := Option.ne_none_iff_exists'.mp hsome
  exact ⟨answer, hanswer, CanonicalGraph.cyclic_of_hasCycle? hanswer⟩

/-! ## Dropped links close cycles -/

/-- The edges of the forest are emitted. -/
theorem adjacent_of_leads (hsearched : graph.Searched scope forest) {policy : BackEdgePolicy}
    {labeler : Labeler S} {parent child : S} (hleads : Leads graph.successors forest parent child) :
    (graph.canonicalize scope policy labeler).Adjacent (graph.number scope parent)
      (graph.number scope child) := by
  obtain ⟨hnext, hunder, hne⟩ := hleads
  obtain ⟨hchild, hparent⟩ := hunder.mem
  -- were it dropped, each of the two intervals would be nested in the other
  rw [hsearched.adjacent_iff (hsearched.mem_links.mpr ⟨hparent, hnext, hchild⟩),
    Bool.eq_false_iff]
  intro hdropped
  have hinside := (Forest.under_iff_nested hsearched.grows.distinct hchild hparent).mp hunder
  exact hne (hinside.antisymm hchild (drops_iff.mp hdropped).1)

/-- Where the source of a link was reached while the search was busy with its
target, edges lead from the target back to the source. -/
theorem path_of_nested (hsearched : graph.Searched scope forest) {policy : BackEdgePolicy}
    {labeler : Labeler S} {source target : S} (hlink : (source, target) ∈ graph.links scope)
    (hnested : forest.Nested source target) :
    Relation.ReflTransGen (graph.canonicalize scope policy labeler).Adjacent
      (graph.number scope target) (graph.number scope source) := by
  obtain ⟨hsource, -, htarget⟩ := hsearched.mem_links.mp hlink
  have hunder := (Forest.under_iff_nested hsearched.grows.distinct hsource htarget).mpr hnested
  exact Relation.ReflTransGen.lift (graph.number scope)
    (fun _ _ => hsearched.adjacent_of_leads) _ _ (hsearched.grows.path_of_under hunder)

end Searched

/-! ## The main statements -/

/-- **Without nested edges there is no cycle.**  An edge that leaves the target of
another one is listed before it, and the cycle test answers no. -/
theorem canonicalize_anyNested_acyclic (graph : DependencyGraph S) (scope : Scope)
    (labeler : Labeler S) :
    let result := graph.canonicalize scope .anyNested labeler
    ¬ Cyclic result.Adjacent ∧
      (∀ (i j : Nat) (first second : CanonicalEdge), result.edges[i]? = some first →
        result.edges[j]? = some second → first.target = second.source → j < i) ∧
      result.hasCycle? = some false := by
  intro result
  obtain ⟨forest, hsearched⟩ := graph.exists_searched scope
  have hacyclic : ¬ Cyclic result.Adjacent := hsearched.not_cyclic labeler
  refine ⟨hacyclic, fun i j first second => hsearched.place_lt, ?_⟩
  obtain ⟨answer, hanswer, hcyclic⟩ := hsearched.hasCycle?_eq .anyNested labeler
  have hno : answer = false := Bool.eq_false_iff.mpr fun hyes => hacyclic (hcyclic.mp hyes)
  rw [hanswer, hno]

/-- A loop with a self-loop and a repeated edge inside, entered again from a
second entry. -/
def tangle : DependencyGraph Nat :=
  { statements := [0, 1, 2, 3]
    successors := fun statement => ([[1], [2, 1, 2], [0], [1]][statement]?).getD []
    entries := [0, 3]
    info := fun _ => {}
    dependence := fun _ _ => none
    context := fun _ _ => none }

theorem canonicalize_tangle_acyclic :
    let result := tangle.canonicalize (fun _ => true) .anyNested tangle.dependence
    ¬ Cyclic result.Adjacent ∧
      (∀ (i j : Nat) (first second : CanonicalEdge), result.edges[i]? = some first →
        result.edges[j]? = some second → first.target = second.source → j < i) ∧
      result.hasCycle? = some false :=
  canonicalize_anyNested_acyclic tangle (fun _ => true) tangle.dependence

/-- **No edge is dropped needlessly.**  The back edges that are counted are the
links that are not emitted, and the emitted edges lead from the target of each
of these back to its source.  So without nested edges the emitted ones are a
maximal acyclic set. -/
theorem dropped_link_closes_cycle (graph : DependencyGraph S) (scope : Scope)
    (policy : BackEdgePolicy) (labeler : Labeler S) :
    let result := graph.canonicalize scope policy labeler
    let number := graph.number scope
    result.stats.backEdges = ((graph.links scope).filter fun link =>
        !result.hasEdge (number link.1) (number link.2)).length ∧
      (∀ source target, graph.Reachable scope source → target ∈ graph.successors source →
        graph.Reachable scope target → ¬ result.Adjacent (number source) (number target) →
        Relation.ReflTransGen result.Adjacent (number target) (number source)) ∧
      (policy = .anyNested → ¬ Cyclic result.Adjacent ∧
        ∀ source target, graph.Reachable scope source → target ∈ graph.successors source →
          graph.Reachable scope target → ¬ result.Adjacent (number source) (number target) →
          Cyclic fun first second => result.Adjacent first second ∨
            first = number source ∧ second = number target) := by
  intro result number
  obtain ⟨forest, hsearched⟩ := graph.exists_searched scope
  have hpath : ∀ source target, graph.Reachable scope source →
      target ∈ graph.successors source → graph.Reachable scope target →
      ¬ result.Adjacent (number source) (number target) →
      Relation.ReflTransGen result.Adjacent (number target) (number source) := by
    intro source target hsource hnext htarget hdropped
    have hlink : (source, target) ∈ graph.links scope := hsearched.mem_links.mpr
      ⟨hsearched.mem_iff.mpr hsource, hnext, hsearched.mem_iff.mpr htarget⟩
    rw [hsearched.adjacent_iff hlink, Bool.not_eq_false] at hdropped
    exact hsearched.path_of_nested hlink (drops_iff.mp hdropped).1
  refine ⟨hsearched.backEdges_eq_length policy labeler, hpath, ?_⟩
  rintro rfl
  refine ⟨hsearched.not_cyclic labeler, fun source target hsource hnext htarget hdropped => ?_⟩
  have hback := hpath source target hsource hnext htarget hdropped
  exact ⟨number source, Relation.TransGen.head' (Or.inr ⟨rfl, rfl⟩)
    (Relation.ReflTransGen.mono (fun _ _ => Or.inl) _ _ hback)⟩

theorem traversal_tangle :
    tangle.traversal (fun _ => true) = ⟨[0, 1, 2, 3], [2, 1, 0, 3]⟩ := by
  simp [tangle, traversal, inScope, DepthFirst.search, DepthFirst.visitRoot, DepthFirst.follow]

theorem reachable_tangle {statement : Nat} (hlt : statement < 3) :
    tangle.Reachable (fun _ => true) statement := by
  have hscope : ∀ statement < 3, tangle.InScope (fun _ => true) statement := fun statement hlt =>
    ⟨List.mem_range.mpr (show statement < 4 by omega), rfl⟩
  refine ⟨0, List.mem_cons_self, hscope 0 (by decide), ?_⟩
  induction statement with
  | zero => exact Relation.ReflTransGen.refl
  | succ statement ih =>
      refine (ih (by omega)).tail ⟨?_, hscope _ hlt⟩
      have hcases : statement = 0 ∨ statement = 1 := by omega
      rcases hcases with rfl | rfl <;> decide

theorem dropped_link_of_tangle :
    let result := tangle.canonicalize (fun _ => true) .anyNested tangle.dependence
    let number := tangle.number fun _ => true
    ¬ result.Adjacent (number 2) (number 0) ∧
      Relation.ReflTransGen result.Adjacent (number 0) (number 2) := by
  intro result number
  have hdropped : ¬ result.Adjacent (number 2) (number 0) := by
    obtain ⟨forest, hsearched⟩ := tangle.exists_searched fun _ => true
    have horders := hsearched.traversal_eq.symm.trans traversal_tangle
    obtain ⟨hpreorder, hpostorder⟩ := DepthFirst.Traversal.mk.inj horders
    have hlink : (2, 0) ∈ tangle.links fun _ => true := hsearched.mem_links.mpr
      ⟨hsearched.mem_iff.mpr (reachable_tangle (by decide)), by decide,
        hsearched.mem_iff.mpr (reachable_tangle (by decide))⟩
    rw [hsearched.adjacent_iff hlink, Bool.not_eq_false, drops_iff, Forest.Nested,
      Forest.interval, Forest.interval, hpreorder, hpostorder]
    exact ⟨by decide, fun hpolicy => absurd hpolicy (by decide)⟩
  obtain ⟨-, hpath, -⟩ :=
    dropped_link_closes_cycle tangle (fun _ => true) .anyNested tangle.dependence
  exact ⟨hdropped, hpath 2 0 (reachable_tangle (by decide)) (by decide)
    (reachable_tangle (by decide)) hdropped⟩

end ProgramGraphs.DependencyGraph
