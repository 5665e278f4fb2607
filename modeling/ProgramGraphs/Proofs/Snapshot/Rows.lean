import ProgramGraphs.Proofs.Snapshot.Lookups

/-!
# Rows of edges

The edges that leave one statement are its *row*.  What a view says of a
statement depends on its row alone: the successors are the distinct targets of
the row, and what is known of an edge is what the first edge of the row to the
same target says.  So edges may be listed in any order that keeps each row as it
is (`SameRows`); the snapshot is still accepted, and its view shows the same
dependency graph (`exists_validate_of_sameRows`).
-/

namespace ProgramGraphs

namespace Snapshot

/-- The edges that leave a statement. -/
def row (edges : List Edge) (source : Nat) : List Edge :=
  edges.filter fun edge => edge.ends.1 = source

/-- Two lists have the same rows: one is the other in another order, in which the
edges that leave the same statement stand as they stood. -/
def SameRows (edges other : List Edge) : Prop := ∀ source, row other source = row edges source

section SameRows

variable {edges other : List Edge}

theorem SameRows.perm (hrows : SameRows edges other) : other.Perm edges := by
  rw [List.perm_iff_count]
  intro edge
  have hrow : ∀ edges : List Edge, (row edges edge.ends.1).count edge = edges.count edge :=
    fun edges => List.count_filter (by simp)
  rw [← hrow other, ← hrow edges, hrows]

theorem firstEdge?_row (edges : List Edge) (ends : Nat × Nat) :
    firstEdge? (row edges ends.1) ends = firstEdge? edges ends := by
  unfold firstEdge? row
  rw [List.find?_filter]
  congr 1
  funext edge
  by_cases hends : edge.ends = ends
  · simp [hends]
  · simp [hends]

theorem firstTargets_row (edges : List Edge) (source : Nat) :
    firstTargets (row edges source) source = firstTargets edges source := by
  have hmap : (row edges source).map Edge.ends =
      (edges.map Edge.ends).filter fun ends => ends.1 = source := by
    rw [row, List.filter_map]
    rfl
  unfold firstTargets
  rw [hmap, eraseDups_filter, List.filter_filter]
  simp only [Bool.and_self]

theorem SameRows.firstEdge?_eq (hrows : SameRows edges other) (ends : Nat × Nat) :
    firstEdge? other ends = firstEdge? edges ends := by
  rw [← firstEdge?_row other, ← firstEdge?_row edges, hrows]

theorem SameRows.firstTargets_eq (hrows : SameRows edges other) (source : Nat) :
    firstTargets other source = firstTargets edges source := by
  rw [← firstTargets_row other, ← firstTargets_row edges, hrows]

end SameRows

section Validate

variable {snapshot : Snapshot} {view : View} {graph : DependencySection} {other : List Edge}

/-- A snapshot may list its edges in another order, and some of them not at all. -/
theorem wellReferenced_of_mem (hgraph : snapshot.dependencyGraph = some graph)
    (hwell : snapshot.WellReferenced) (hmem : ∀ edge ∈ other, edge ∈ graph.edges) :
    { snapshot with
      dependencyGraph := some { graph with edges := other } : Snapshot }.WellReferenced := by
  have hedges : snapshot.edges = graph.edges := by simp only [edges, hgraph]
  have hstatements : snapshot.statements = graph.statements := by simp only [statements, hgraph]
  have hgiven : snapshot.givenEntries = graph.entries.getD [] := by
    simp only [givenEntries, hgraph]
  constructor
  case classOfMethod => exact hwell.classOfMethod
  case methodOfNode => exact hwell.methodOfNode
  case callTarget => exact hwell.callTarget
  case entryPoint => exact hwell.entryPoint
  case nodeOfStatement => exact hstatements ▸ hwell.nodeOfStatement
  case edgeSource =>
    intro edge hedge
    have hlt := hwell.edgeSource edge (hedges ▸ hmem edge hedge)
    rwa [hstatements] at hlt
  case edgeTarget =>
    intro edge hedge
    have hlt := hwell.edgeTarget edge (hedges ▸ hmem edge hedge)
    rwa [hstatements] at hlt
  case entry =>
    intro statement hstatement
    have hlt := hwell.entry statement (hgiven ▸ hstatement)
    rwa [hstatements] at hlt

/-- In another order with the same rows, edges give the same view. -/
theorem exists_validate_of_sameRows (hgraph : snapshot.dependencyGraph = some graph)
    (hvalid : snapshot.validate = .ok view) (hrows : SameRows graph.edges other) :
    ∃ rearranged,
      { snapshot with
        dependencyGraph := some { graph with edges := other } : Snapshot }.validate =
          .ok rearranged ∧
        rearranged.dependencyGraph = view.dependencyGraph ∧
        ∀ ends : Nat × Nat, rearranged.tables.edges[ends]? = view.tables.edges[ends]? := by
  have hedges : snapshot.edges = graph.edges := by simp only [edges, hgraph]
  have hfirst : ∀ ends, firstEdge? other ends = firstEdge? snapshot.edges ends := by
    rw [hedges]
    exact hrows.firstEdge?_eq
  obtain ⟨rearranged, hother⟩ := exists_validate_iff.mpr
    (wellReferenced_of_mem hgraph (wellReferenced_of_validate hvalid)
      fun edge hedge => hrows.perm.mem_iff.mp hedge)
  refine ⟨rearranged, hother, ?_, ?_⟩
  · apply dependencyGraph_congr hvalid hother rfl
    · simp only [statements, hgraph]
    · intro source
      rw [hedges]
      exact hrows.firstTargets_eq source
    · exact hfirst
    · obtain ⟨-, rfl⟩ := validate_eq_ok hvalid
      obtain ⟨-, rfl⟩ := validate_eq_ok hother
      simp only [hgraph, entries_tables]
      rfl
  · intro ends
    rw [(records_of_validate hother).edges_eq, (records_of_validate hvalid).edges_eq]
    exact hfirst ends

/-- **The views of the edges agree.**  The successors of a statement are the
targets of the edges that leave it, each once, in the order in which the pairs are
first listed; they are the targets that the table of edges knows.  What is known of
an edge is what the first one between its ends says.  Listing the edges in another
order with the same rows changes nothing of this. -/
theorem edge_views_agree (hgraph : snapshot.dependencyGraph = some graph)
    (hvalid : snapshot.validate = .ok view) :
    let shown := view.dependencyGraph
    let listed := graph.edges.map Edge.ends
    (∀ source, (shown.successors source).Nodup ∧
        (∀ target, target ∈ shown.successors source ↔ (source, target) ∈ listed) ∧
        (shown.successors source).Pairwise fun first second =>
          listed.idxOf (source, first) < listed.idxOf (source, second)) ∧
      (∀ source target,
        (target ∈ shown.successors source ↔ (source, target) ∈ view.tables.edges) ∧
          view.tables.edges[(source, target)]? = firstEdge? graph.edges (source, target) ∧
          shown.dependence source target =
            (firstEdge? graph.edges (source, target)).bind (·.dependence) ∧
          shown.context source target =
            (firstEdge? graph.edges (source, target)).bind (·.context)) ∧
      ∀ other, SameRows graph.edges other → ∃ rearranged,
        { snapshot with
          dependencyGraph := some { graph with edges := other } : Snapshot }.validate =
            .ok rearranged ∧
          rearranged.dependencyGraph = shown ∧
          ∀ ends : Nat × Nat, rearranged.tables.edges[ends]? = view.tables.edges[ends]? := by
  intro shown listed
  have hedges : snapshot.edges = graph.edges := by simp only [edges, hgraph]
  have hsuccessors : ∀ source, shown.successors source = firstTargets graph.edges source := by
    intro source
    rw [← hedges]
    exact successors_of_validate hvalid source
  have htable : ∀ ends, view.tables.edges[ends]? = firstEdge? graph.edges ends := by
    intro ends
    rw [← hedges]
    exact (records_of_validate hvalid).edges_eq ends
  refine ⟨fun source => ?_, fun source target => ⟨?_, htable _, ?_, ?_⟩, ?_⟩
  · rw [hsuccessors]
    exact ⟨nodup_firstTargets _ _, fun target => mem_firstTargets, pairwise_firstTargets _ _⟩
  · rw [hsuccessors, mem_firstTargets, Std.HashMap.mem_iff_isSome_getElem?, htable,
      Option.isSome_iff_ne_none, Ne, firstEdge?_eq_none_iff, not_not]
  · rw [← hedges]
    exact dependence_of_validate hvalid source target
  · rw [← hedges]
    exact context_of_validate hvalid source target
  · intro other hrows
    exact exists_validate_of_sameRows hgraph hvalid hrows

/-- Two edges from the first statement to the second, of which only the later one has
a calling context, around an edge that leaves another statement. -/
def interleaved : DependencySection :=
  { statements := [{ node := 0, kind := .methodEntry }, { node := 0, kind := .phi },
      { node := 0, kind := .methodExit }]
    edges := [
      { source := 0, target := 1, dependence := some "data" },
      { source := 2, target := 1 },
      { source := 0, target := 1, context := some "CallSite@4" },
      { source := 0, target := 2 }] }

/-- A snapshot with these edges. -/
def interleavedSnapshot : Snapshot :=
  { classes := [{ name := "Lp/A" }]
    methods := [⟨"main", 0⟩]
    callGraph := { nodes := [⟨0, []⟩] }
    dependencyGraph := some interleaved }

/-- The same edges, with the one that leaves another statement behind the others. -/
def gathered : List Edge :=
  [{ source := 0, target := 1, dependence := some "data" },
    { source := 0, target := 1, context := some "CallSite@4" },
    { source := 0, target := 2 },
    { source := 2, target := 1 }]

theorem sameRows_gathered : SameRows interleaved.edges gathered := by
  intro source
  have hcases : source = 0 ∨ source = 2 ∨ source ≠ 0 ∧ source ≠ 2 := by omega
  rcases hcases with rfl | rfl | ⟨hne, hne'⟩
  · rfl
  · rfl
  · simp [row, interleaved, gathered, Edge.ends, Ne.symm hne, Ne.symm hne']

theorem interleaved_edge_views :
    ∃ view, interleavedSnapshot.validate = .ok view ∧
      1 ∈ view.dependencyGraph.successors 0 ∧ 0 ∉ view.dependencyGraph.successors 1 ∧
      view.dependencyGraph.dependence 0 1 = some "data" ∧
      view.dependencyGraph.context 0 1 = none ∧
      ∃ rearranged,
        { interleavedSnapshot with
          dependencyGraph := some { interleaved with edges := gathered } : Snapshot }.validate =
            .ok rearranged ∧
          rearranged.dependencyGraph = view.dependencyGraph := by
  obtain ⟨view, hvalid⟩ : ∃ view, interleavedSnapshot.validate = .ok view := ⟨_, rfl⟩
  have hgraph : interleavedSnapshot.dependencyGraph = some interleaved := rfl
  obtain ⟨hrows, htable, hother⟩ := edge_views_agree hgraph hvalid
  obtain ⟨-, -, hdependence, hcontext⟩ := htable 0 1
  obtain ⟨rearranged, hrearranged, hsame, -⟩ := hother gathered sameRows_gathered
  refine ⟨view, hvalid, ?_, ?_, hdependence, hcontext, rearranged, hrearranged, hsame⟩
  · exact ((hrows 0).2.1 1).mpr (by decide)
  · exact fun hmem => absurd (((hrows 1).2.1 0).mp hmem) (by decide)

end Validate

end Snapshot

end ProgramGraphs
