import ProgramGraphs.Proofs.Canonical.Links
import ProgramGraphs.Proofs.Snapshot.Tables

/-!
# The canonical edges of a snapshot

A snapshot whose references were checked may list an edge several times, and it
may list edges that no search meets.  Its canonical graph accounts for each of
the pairs that it lists from a reached statement to one in scope: the pair is
emitted once, with what the first edge between the two statements shows, or
counted once among the back edges (`canonicalize_edges_of_validate`).

The successors in the tables have no repetitions, so neither have the links of
the search, and they are the pairs in question (`mem_links_iff`).
-/

namespace ProgramGraphs

namespace DependencyGraph

section Joins

variable {S : Type} [BEq S] [Hashable S] [LawfulBEq S]

/-- An edge runs between the discovery ranks of two statements. -/
def Joins (graph : DependencyGraph S) (scope : Scope) (edge : CanonicalEdge) (pair : S × S) :
    Prop :=
  (graph.traversal scope).ranks.discover[pair.1]? = some edge.source ∧
    (graph.traversal scope).ranks.discover[pair.2]? = some edge.target

namespace Searched

variable {graph : DependencyGraph S} {scope : Scope} {forest : Forest S}

theorem finish_eq (hsearched : graph.Searched scope forest) {statement : S}
    (hmem : statement ∈ forest) :
    (graph.traversal scope).ranks.finish[statement]? =
      some (forest.postorder.idxOf statement) := by
  rw [hsearched.traversal_eq]
  exact (DepthFirst.getElem?_ranks hsearched.grows.distinct.nodup_postorder statement).trans
    (if_pos (Forest.mem_postorder.mpr hmem))

theorem joins_iff (hsearched : graph.Searched scope forest) {edge : CanonicalEdge}
    {pair : S × S} :
    graph.Joins scope edge pair ↔
      (pair.1 ∈ forest ∧ graph.number scope pair.1 = edge.source) ∧
        pair.2 ∈ forest ∧ graph.number scope pair.2 = edge.target :=
  and_congr hsearched.discover_eq_some_iff hsearched.discover_eq_some_iff

/-- The edge that a link becomes joins its ends, and no other statements. -/
theorem joins_canonicalLink (hsearched : graph.Searched scope forest) {link : S × S}
    (hlink : link ∈ graph.links scope) (labeler : Labeler S) {pair : S × S} :
    graph.Joins scope (graph.canonicalLink scope labeler link) pair ↔ pair = link := by
  obtain ⟨hsource, -, htarget⟩ := hsearched.mem_links.mp hlink
  rw [hsearched.joins_iff]
  constructor
  · rintro ⟨⟨hfirst, heqSource⟩, hsecond, heqTarget⟩
    exact Prod.ext ((hsearched.number_inj hfirst).mp heqSource)
      ((hsearched.number_inj hsecond).mp heqTarget)
  · rintro rfl
    exact ⟨⟨hsource, rfl⟩, htarget, rfl⟩

/-- A link is emitted exactly when it is not dropped. -/
theorem exists_joins_iff (hsearched : graph.Searched scope forest) {policy : BackEdgePolicy}
    {labeler : Labeler S} {link : S × S} (hlink : link ∈ graph.links scope) :
    (∃ edge ∈ (graph.canonicalize scope policy labeler).edges, graph.Joins scope edge link) ↔
      graph.drops policy forest link = false := by
  obtain ⟨hsource, -, htarget⟩ := hsearched.mem_links.mp hlink
  rw [← hsearched.adjacent_iff hlink, CanonicalGraph.Adjacent]
  refine exists_congr fun edge => and_congr_right fun _ => ?_
  rw [hsearched.joins_iff, and_iff_right hsource, and_iff_right htarget]
  exact and_congr eq_comm eq_comm

/-! ## Distinct successors -/

theorem nodup_links (hsearched : graph.Searched scope forest)
    (hnodup : ∀ source, (graph.successors source).Nodup) : (graph.links scope).Nodup := by
  refine (hsearched.pairwise_links (fun _ => (· ≠ ·)) hnodup).imp ?_
  rintro first _ (hlt | ⟨-, hne⟩) rfl
  · exact Nat.lt_irrefl _ hlt
  · exact hne rfl

theorem nodup_edges (hsearched : graph.Searched scope forest)
    (hnodup : ∀ source, (graph.successors source).Nodup) (policy : BackEdgePolicy)
    (labeler : Labeler S) :
    ((graph.canonicalize scope policy labeler).edges.map
      fun edge => (edge.source, edge.target)).Nodup := by
  rw [hsearched.edges_eq, List.map_map]
  refine ((hsearched.nodup_links hnodup).filter _).map_on fun first hfirst second hsecond heq => ?_
  have hlink := (mem_keptLinks.mp hfirst).1
  obtain ⟨hsource, -, htarget⟩ := hsearched.mem_links.mp hlink
  exact Prod.ext ((hsearched.number_inj hsource).mp (congrArg Prod.fst heq))
    ((hsearched.number_inj htarget).mp (congrArg Prod.snd heq))

/-- The edges that are kept are the links that some edge joins. -/
theorem keptEdges_eq_ncard (hsearched : graph.Searched scope forest)
    (hnodup : ∀ source, (graph.successors source).Nodup) (policy : BackEdgePolicy)
    (labeler : Labeler S) :
    (graph.canonicalize scope policy labeler).stats.keptEdges =
      ({link | link ∈ graph.links scope} ∩ {pair |
        ∃ edge ∈ (graph.canonicalize scope policy labeler).edges,
          graph.Joins scope edge pair}).ncard := by
  have hlinks : {link | link ∈ graph.links scope} ∩ {pair |
      ∃ edge ∈ (graph.canonicalize scope policy labeler).edges, graph.Joins scope edge pair} =
        {link | link ∈ graph.keptLinks scope policy forest} := by
    ext link
    rw [Set.mem_ofPred_eq, mem_keptLinks]
    exact and_congr_right fun hlink => hsearched.exists_joins_iff hlink
  have hkept : (graph.keptLinks scope policy forest).Nodup :=
    (hsearched.nodup_links hnodup).filter _
  rw [hlinks, ncard_of_nodup hkept, keptEdges_eq, hsearched.edges_eq, List.length_map]

/-- The back edges that are counted are the links that no edge joins. -/
theorem backEdges_eq_ncard (hsearched : graph.Searched scope forest)
    (hnodup : ∀ source, (graph.successors source).Nodup) (policy : BackEdgePolicy)
    (labeler : Labeler S) :
    (graph.canonicalize scope policy labeler).stats.backEdges =
      ({link | link ∈ graph.links scope} \ {pair |
        ∃ edge ∈ (graph.canonicalize scope policy labeler).edges,
          graph.Joins scope edge pair}).ncard := by
  have hlinks : {link | link ∈ graph.links scope} \ {pair |
      ∃ edge ∈ (graph.canonicalize scope policy labeler).edges, graph.Joins scope edge pair} =
        {link | link ∈ (graph.links scope).filter (graph.drops policy forest)} := by
    ext link
    rw [Set.mem_ofPred_eq, List.mem_filter]
    refine and_congr_right fun hlink => (not_congr (hsearched.exists_joins_iff hlink)).trans ?_
    exact Bool.not_eq_false _ ▸ Iff.rfl
  rw [hlinks, ncard_of_nodup ((hsearched.nodup_links hnodup).filter _), hsearched.backEdges_eq]

end Searched

end Joins

end DependencyGraph

namespace Snapshot

open DependencyGraph

variable {snapshot : Snapshot} {view : View}

theorem nodup_successors (hvalid : snapshot.validate = .ok view) (source : Nat) :
    (view.dependencyGraph.successors source).Nodup := by
  rw [successors_of_validate hvalid]
  exact nodup_firstTargets snapshot.edges source

/-- The links are the listed pairs from a reached statement to one in scope. -/
theorem mem_links_iff (hvalid : snapshot.validate = .ok view) {scope : Scope}
    {pair : Nat × Nat} :
    pair ∈ view.dependencyGraph.links scope ↔
      pair ∈ snapshot.edges.map Edge.ends ∧ view.dependencyGraph.Reachable scope pair.1 ∧
        view.dependencyGraph.InScope scope pair.2 := by
  obtain ⟨forest, hsearched⟩ := view.dependencyGraph.exists_searched scope
  obtain ⟨source, target⟩ := pair
  rw [hsearched.mem_links, successors_of_validate hvalid, mem_firstTargets, ← hsearched.mem_iff]
  constructor
  · rintro ⟨hsource, hlisted, htarget⟩
    exact ⟨hlisted, hsource, hsearched.inScope_of_mem htarget⟩
  · rintro ⟨hlisted, hsource, hscope⟩
    refine ⟨hsource, hlisted, hsearched.grows.closed hsource ?_ hscope⟩
    rwa [successors_of_validate hvalid, mem_firstTargets]

/-- A listed pair shows what the first edge between its statements shows. -/
theorem canonicalLink_eq (hvalid : snapshot.validate = .ok view) (scope : Scope)
    {link : Nat × Nat} (hlisted : link ∈ snapshot.edges.map Edge.ends) :
    ∃ first, firstEdge? snapshot.edges link = some first ∧
      view.dependencyGraph.canonicalLink scope (view.dependencyGraph.labeler .dependence) link =
        { source := view.dependencyGraph.number scope link.1
          target := view.dependencyGraph.number scope link.2
          edgeType := first.dependence
          context := first.context } := by
  cases hfirst : firstEdge? snapshot.edges link with
  | none => exact absurd hlisted (firstEdge?_eq_none_iff.mp hfirst)
  | some first =>
      refine ⟨first, rfl, ?_⟩
      rw [canonicalLink, labeler, dependence_of_validate hvalid, context_of_validate hvalid,
        hfirst]
      rfl

/-- Edges are listed by the finish rank of their source, and those of one source
in the order in which their pairs are first listed. -/
theorem pairwise_edges (hvalid : snapshot.validate = .ok view) (scope : Scope)
    (policy : BackEdgePolicy) (labeler : Labeler Nat) :
    (view.dependencyGraph.canonicalize scope policy labeler).edges.Pairwise fun first second =>
      ∀ pair later, view.dependencyGraph.Joins scope first pair →
        view.dependencyGraph.Joins scope second later →
        ∃ rank laterRank,
          (view.dependencyGraph.traversal scope).ranks.finish[pair.1]? = some rank ∧
          (view.dependencyGraph.traversal scope).ranks.finish[later.1]? = some laterRank ∧
          (rank < laterRank ∨ pair.1 = later.1 ∧
            (snapshot.edges.map Edge.ends).idxOf pair <
              (snapshot.edges.map Edge.ends).idxOf later) := by
  obtain ⟨forest, hsearched⟩ := view.dependencyGraph.exists_searched scope
  have hsorted := hsearched.pairwise_links (fun source first second =>
      (snapshot.edges.map Edge.ends).idxOf (source, first) <
        (snapshot.edges.map Edge.ends).idxOf (source, second)) fun source =>
    successors_of_validate hvalid source ▸ pairwise_firstTargets snapshot.edges source
  -- dropping links keeps the order of the others, and an edge joins only its own link
  rw [hsearched.edges_eq, List.pairwise_map]
  refine (hsorted.filter _).imp_of_mem ?_
  intro first second hfirst hsecond hrises pair later hpair hlater
  have hlink := List.mem_of_mem_filter hfirst
  have hlaterLink := List.mem_of_mem_filter hsecond
  obtain rfl := (hsearched.joins_canonicalLink hlink labeler).mp hpair
  obtain rfl := (hsearched.joins_canonicalLink hlaterLink labeler).mp hlater
  refine ⟨_, _, hsearched.finish_eq (hsearched.mem_links.mp hlink).1,
    hsearched.finish_eq (hsearched.mem_links.mp hlaterLink).1, ?_⟩
  refine hrises.imp_right fun ⟨hsource, hlt⟩ => ⟨hsource, ?_⟩
  have hend : (pair.1, later.2) = later := Prod.ext hsource rfl
  rwa [hend] at hlt

/-- **No edge is lost and none is duplicated.**  The pairs in question are those
that a checked snapshot lists from a reached statement to one in scope; all of
them have discovery ranks.  Each is emitted once, with what the first edge
between the two statements shows, or counted once among the back edges, and
nothing else is emitted. -/
theorem canonicalize_edges_of_validate (hvalid : snapshot.validate = .ok view) (scope : Scope)
    (policy : BackEdgePolicy) :
    let graph := view.dependencyGraph
    let result := graph.canonicalize scope policy (graph.labeler .dependence)
    let ranks := (graph.traversal scope).ranks
    let listed := snapshot.edges.map Edge.ends
    let pairs := {pair | pair ∈ listed ∧ graph.Reachable scope pair.1 ∧ graph.InScope scope pair.2}
    let emitted := {pair | ∃ edge ∈ result.edges, graph.Joins scope edge pair}
    (result.edges.map fun edge => (edge.source, edge.target)).Nodup ∧
      (∀ edge ∈ result.edges, ∃ pair ∈ pairs, ∃ first,
        (∀ other, graph.Joins scope edge other ↔ other = pair) ∧
          firstEdge? snapshot.edges pair = some first ∧
          edge.edgeType = first.dependence ∧ edge.context = first.context) ∧
      (∀ pair ∈ pairs, ∃ source target,
        ranks.discover[pair.1]? = some source ∧ ranks.discover[pair.2]? = some target) ∧
      result.stats.keptEdges = (pairs ∩ emitted).ncard ∧
      result.stats.backEdges = (pairs \ emitted).ncard ∧
      result.stats.keptEdges + result.stats.backEdges = pairs.ncard ∧
      result.edges.Pairwise fun first second => ∀ pair later,
        graph.Joins scope first pair → graph.Joins scope second later →
        ∃ rank laterRank, ranks.finish[pair.1]? = some rank ∧
          ranks.finish[later.1]? = some laterRank ∧
          (rank < laterRank ∨ pair.1 = later.1 ∧ listed.idxOf pair < listed.idxOf later) := by
  intro graph result ranks listed pairs emitted
  obtain ⟨forest, hsearched⟩ := graph.exists_searched scope
  have hnodup := nodup_successors hvalid
  have hpairs : pairs = {link | link ∈ graph.links scope} := by
    ext pair
    exact (mem_links_iff hvalid).symm
  have hkept : result.stats.keptEdges = (pairs ∩ emitted).ncard := by
    rw [hpairs]
    exact hsearched.keptEdges_eq_ncard hnodup policy _
  have hback : result.stats.backEdges = (pairs \ emitted).ncard := by
    rw [hpairs]
    exact hsearched.backEdges_eq_ncard hnodup policy _
  refine ⟨hsearched.nodup_edges hnodup policy _, ?_, ?_, hkept, hback, ?_,
    pairwise_edges hvalid scope policy _⟩
  · intro edge hedge
    obtain ⟨link, hlink, -, rfl⟩ := hsearched.mem_edges_iff.mp hedge
    have hpair := (mem_links_iff hvalid).mp hlink
    obtain ⟨first, hfirst, heq⟩ := canonicalLink_eq hvalid scope hpair.1
    refine ⟨link, hpair, first, fun other => hsearched.joins_canonicalLink hlink _, hfirst, ?_, ?_⟩
    · exact congrArg CanonicalEdge.edgeType heq
    · exact congrArg CanonicalEdge.context heq
  · intro pair hpair
    obtain ⟨hsource, -, htarget⟩ := hsearched.mem_links.mp ((mem_links_iff hvalid).mpr hpair)
    exact ⟨_, _, (hsearched.discover_eq _).trans (if_pos hsource),
      (hsearched.discover_eq _).trans (if_pos htarget)⟩
  · have hfinite : pairs.Finite := hpairs ▸ List.finite_toSet _
    rw [hkept, hback, Set.ncard_inter_add_ncard_sdiff_eq_ncard pairs emitted hfinite]

/-- Two edges from the first statement to the third, a detour through a class of
the library, and an edge back. -/
def doubled : Snapshot :=
  { classes := [{ loader := "Application" }, { loader := "Primordial" }]
    methods := [{ name := "main", declaringClass := 0 }, { name := "copy", declaringClass := 1 }]
    callGraph := { nodes := [{ method := 0 }, { method := 1 }], entryPoints := [0] }
    dependencyGraph := some
      { statements := [
          { node := 0, kind := .methodEntry },
          { node := 1, kind := .methodEntry },
          { node := 0, kind := .methodEntry }]
        edges := [
          { source := 0, target := 2, dependence := some "data" },
          { source := 0, target := 1 },
          { source := 1, target := 2 },
          { source := 0, target := 2, dependence := some "control" },
          { source := 2, target := 0 }]
        entries := some [0] } }

theorem inScope_doubled {view : View} (hvalid : doubled.validate = .ok view) (place : Nat) :
    view.dependencyGraph.InScope ({} : LoaderScope).toScope place ↔ place = 0 ∨ place = 2 := by
  obtain ⟨-, rfl⟩ := validate_eq_ok hvalid
  have hcases : place = 0 ∨ place = 1 ∨ place = 2 ∨ 3 ≤ place := by omega
  rcases hcases with rfl | rfl | rfl | hge <;>
    simp [InScope, View.dependencyGraph, View.statementInfos, View.statementInfo?, nodeInfos,
      statements, doubled, LoaderScope.toScope, LoaderScope.excludes]
  omega

theorem entries_doubled {view : View} (hvalid : doubled.validate = .ok view) :
    view.dependencyGraph.entries = [0] := by
  obtain ⟨-, rfl⟩ := validate_eq_ok hvalid
  exact entries_tables _ _

theorem successors_doubled {view : View} (hvalid : doubled.validate = .ok view) :
    view.dependencyGraph.successors 0 = [2, 1] ∧ view.dependencyGraph.successors 2 = [0] :=
  ⟨successors_of_validate hvalid 0, successors_of_validate hvalid 2⟩

/-- The third statement is found from the first, and nothing else is. -/
theorem searched_doubled {view : View} (hvalid : doubled.validate = .ok view) :
    view.dependencyGraph.Searched ({} : LoaderScope).toScope
      (.tree 0 (.tree 2 .empty .empty) .empty) := by
  have hscope := inScope_doubled hvalid
  obtain ⟨hfirst, hthird⟩ := successors_doubled hvalid
  refine searched_of_grows ?_
  rw [entries_doubled hvalid]
  refine .visit ((hscope 0).mpr (Or.inl rfl)) ?_ (.done _)
  rw [hfirst]
  refine .visit ⟨(hscope 2).mpr (Or.inr rfl), by decide⟩ ?_ ?_
  · rw [hthird]
    exact .skip (fun hwhite => hwhite.1.2 rfl) (.done _)
  · exact .skip (fun hwhite => absurd ((hscope 1).mp hwhite.1.1.1) (by decide)) (.done _)

theorem links_doubled {view : View} (hvalid : doubled.validate = .ok view) :
    view.dependencyGraph.links ({} : LoaderScope).toScope = [(2, 0), (0, 2)] := by
  obtain ⟨hfirst, hthird⟩ := successors_doubled hvalid
  rw [(searched_doubled hvalid).links_eq]
  simp [Forest.postorder, hfirst, hthird]

/-- The edge back is dropped, and the other pair is emitted with its first label. -/
theorem edges_doubled {view : View} (hvalid : doubled.validate = .ok view) :
    (view.dependencyGraph.canonicalize ({} : LoaderScope).toScope .anyNested
      (view.dependencyGraph.labeler .dependence)).edges = [⟨0, 1, some "data", none⟩] := by
  have hsearched := searched_doubled hvalid
  have hkept : view.dependencyGraph.keptLinks ({} : LoaderScope).toScope .anyNested
      (.tree 0 (.tree 2 .empty .empty) .empty) = [(0, 2)] := by
    rw [keptLinks, links_doubled hvalid]
    rfl
  have hlisted : (0, 2) ∈ doubled.edges.map Edge.ends := by decide
  obtain ⟨first, hfirst, hlink⟩ := canonicalLink_eq hvalid ({} : LoaderScope).toScope hlisted
  obtain rfl := Option.some.inj hfirst
  rw [hsearched.edges_eq, hkept, List.map_singleton, hlink, hsearched.number_eq,
    hsearched.number_eq]
  rfl

/-- Of the five edges two join a pair in question, and the pair is emitted once,
as the first of them.  The edge back is counted. -/
theorem canonicalize_doubled_edges :
    ∃ view, doubled.validate = .ok view ∧
      let graph := view.dependencyGraph
      let scope := ({} : LoaderScope).toScope
      let result := graph.canonicalize scope .anyNested (graph.labeler .dependence)
      let pairs := {pair | pair ∈ doubled.edges.map Edge.ends ∧
        graph.Reachable scope pair.1 ∧ graph.InScope scope pair.2}
      pairs = {(0, 2), (2, 0)} ∧
        result.edges = [⟨0, 1, some "data", none⟩] ∧
        graph.Joins scope ⟨0, 1, some "data", none⟩ (0, 2) ∧
        (∀ edge ∈ result.edges, graph.Joins scope edge (0, 2) → edge.edgeType = some "data") ∧
        result.stats.keptEdges = 1 ∧ result.stats.backEdges = 1 ∧
        result.stats.keptEdges + result.stats.backEdges = pairs.ncard := by
  obtain ⟨view, hvalid⟩ : ∃ view, doubled.validate = .ok view := ⟨_, rfl⟩
  obtain ⟨-, hedges, -, -, -, hcount, -⟩ :=
    canonicalize_edges_of_validate hvalid ({} : LoaderScope).toScope .anyNested
  have hpairs : {pair | pair ∈ doubled.edges.map Edge.ends ∧
      view.dependencyGraph.Reachable ({} : LoaderScope).toScope pair.1 ∧
      view.dependencyGraph.InScope ({} : LoaderScope).toScope pair.2} = {(0, 2), (2, 0)} := by
    ext pair
    refine (mem_links_iff hvalid).symm.trans ?_
    rw [links_doubled hvalid, List.mem_pair]
    exact or_comm
  have hkept : (view.dependencyGraph.canonicalize ({} : LoaderScope).toScope .anyNested
      (view.dependencyGraph.labeler .dependence)).stats.keptEdges = 1 := by
    rw [keptEdges_eq, edges_doubled hvalid, List.length_singleton]
  refine ⟨view, hvalid, hpairs, edges_doubled hvalid, ?_, fun edge hedge hjoins => ?_, ?_, ?_,
    hcount⟩
  · have hsearched := searched_doubled hvalid
    exact hsearched.joins_iff.mpr
      ⟨⟨by decide, hsearched.number_eq 0⟩, by decide, hsearched.number_eq 2⟩
  · obtain ⟨pair, -, first, honly, hfirst, htype, -⟩ := hedges edge hedge
    obtain rfl := (honly _).mp hjoins
    obtain rfl := Option.some.inj hfirst
    exact htype
  · exact hkept
  · rw [hpairs, Set.ncard_pair (by decide), hkept] at hcount
    omega

end Snapshot

end ProgramGraphs
