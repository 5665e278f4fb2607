import ProgramGraphs.Proofs.Canonical.Links
import ProgramGraphs.Proofs.Search.Cycle

/-!
# What the cycle test of a canonical graph answers

The test is asked of any canonical graph, not only of one that was made from a
dependency graph: ids of vertices may repeat or be out of order, and ends of
edges may lie beyond the vertices.  A cycle is a closed walk here, a row of
edges that leads from an id back to it, and each edge of the row is one of the
graph's; so edges that join the same vertices are different ways to go, and an
edge from a vertex to itself is a walk on its own.

`transGen_adjacent_iff` turns walks into chains of steps, about which
`Search.exists_hasCycle?` speaks.
-/

namespace ProgramGraphs

namespace CanonicalGraph

/-- A row of edges of a graph leads from one id to another: each edge starts
where the one before it ends. -/
inductive Walk (graph : CanonicalGraph) : Nat → List CanonicalEdge → Nat → Prop where
  | nil (id : Nat) : graph.Walk id [] id
  | cons {edge : CanonicalEdge} {walk : List CanonicalEdge} {target : Nat}
      (hedge : edge ∈ graph.edges) (hwalk : graph.Walk edge.target walk target) :
      graph.Walk edge.source (edge :: walk) target

variable {graph : CanonicalGraph} {source target : Nat}

theorem Walk.eq_of_nil (hwalk : graph.Walk source [] target) : source = target := by
  cases hwalk
  rfl

theorem transGen_of_walk {walk : List CanonicalEdge} (hwalk : graph.Walk source walk target)
    (hne : walk ≠ []) : Relation.TransGen graph.Adjacent source target := by
  induction hwalk with
  | nil => exact absurd rfl hne
  | @cons edge walk target hedge hwalk ih =>
      have hstep : graph.Adjacent edge.source edge.target := ⟨edge, hedge, rfl, rfl⟩
      by_cases hlast : walk = []
      · subst hlast
        rw [← hwalk.eq_of_nil]
        exact Relation.TransGen.single hstep
      · exact Relation.TransGen.head hstep (ih hlast)

/-- A walk of at least one edge is a chain of steps between adjacent ids. -/
theorem transGen_adjacent_iff : Relation.TransGen graph.Adjacent source target ↔
    ∃ walk, walk ≠ [] ∧ graph.Walk source walk target := by
  constructor
  · intro hchain
    induction hchain using Relation.TransGen.head_induction_on with
    | single hstep =>
        obtain ⟨edge, hedge, rfl, rfl⟩ := hstep
        exact ⟨[edge], List.cons_ne_nil _ _, .cons hedge (.nil _)⟩
    | head hstep _ ih =>
        obtain ⟨edge, hedge, rfl, rfl⟩ := hstep
        obtain ⟨walk, -, hwalk⟩ := ih
        exact ⟨edge :: walk, List.cons_ne_nil _ _, .cons hedge hwalk⟩
  · rintro ⟨walk, hne, hwalk⟩
    exact transGen_of_walk hwalk hne

/-- The test gives no answer exactly when an edge has an end that is no vertex. -/
theorem hasCycle?_eq_none_iff : graph.hasCycle? = none ↔
    ∃ edge ∈ graph.edges,
      graph.vertices.length ≤ edge.source ∨ graph.vertices.length ≤ edge.target := by
  unfold hasCycle? Search.hasCycle?
  split
  · rename_i hall
    simp only [List.all_map, List.all_eq_true, Function.comp_apply, Bool.and_eq_true,
      decide_eq_true_eq] at hall
    simp only [reduceCtorEq, false_iff, not_exists, not_and]
    intro edge hedge
    have hends := hall edge hedge
    omega
  · rename_i hnotall
    simp only [List.all_map, List.all_eq_true, Function.comp_apply, Bool.and_eq_true,
      decide_eq_true_eq, not_forall] at hnotall
    simp only [true_iff]
    obtain ⟨edge, hedge, hends⟩ := hnotall
    refine ⟨edge, hedge, ?_⟩
    omega

/-- An answer says whether some id is reached from itself. -/
theorem cyclic_of_hasCycle? {answer : Bool} (hanswer : graph.hasCycle? = some answer) :
    answer = true ↔ Cyclic graph.Adjacent := by
  have hrange : ∀ ends ∈ graph.edges.map (fun edge => (edge.source, edge.target)),
      ends.1 < graph.vertices.length ∧ ends.2 < graph.vertices.length := by
    intro ends hends
    obtain ⟨edge, hedge, rfl⟩ := List.mem_map.mp hends
    have hsome : graph.hasCycle? ≠ none := by simp [hanswer]
    rw [Ne, hasCycle?_eq_none_iff] at hsome
    push Not at hsome
    exact hsome edge hedge
  obtain ⟨found, hfound, hiff⟩ := Search.exists_hasCycle? hrange
  obtain rfl : found = answer := Option.some.inj (hfound.symm.trans hanswer)
  have hsteps : (fun source target =>
      (source, target) ∈ graph.edges.map fun edge => (edge.source, edge.target)) =
        graph.Adjacent := by
    funext source target
    simp [Adjacent]
  rw [hiff, hsteps]

/-- Graphs with equally many vertices and edges between the same ids get the same
answer. -/
theorem hasCycle?_congr {other : CanonicalGraph}
    (hlength : other.vertices.length = graph.vertices.length)
    (hadjacent : other.Adjacent = graph.Adjacent) : other.hasCycle? = graph.hasCycle? := by
  have hnone : other.hasCycle? = none ↔ graph.hasCycle? = none := by
    have hbeyond : ∀ graph : CanonicalGraph, graph.hasCycle? = none ↔ ∃ source target,
        graph.Adjacent source target ∧
          (graph.vertices.length ≤ source ∨ graph.vertices.length ≤ target) := by
      intro graph
      rw [hasCycle?_eq_none_iff]
      constructor
      · rintro ⟨edge, hedge, hends⟩
        exact ⟨edge.source, edge.target, ⟨edge, hedge, rfl, rfl⟩, hends⟩
      · rintro ⟨_, _, ⟨edge, hedge, rfl, rfl⟩, hends⟩
        exact ⟨edge, hedge, hends⟩
    rw [hbeyond, hbeyond, hlength, hadjacent]
  cases hgraph : graph.hasCycle? with
  | none => exact hnone.mpr hgraph
  | some answer =>
      cases hother : other.hasCycle? with
      | none =>
          rw [hnone.mp hother] at hgraph
          contradiction
      | some found =>
          have hsame : found = true ↔ answer = true := by
            rw [cyclic_of_hasCycle? hother, cyclic_of_hasCycle? hgraph, hadjacent]
          rw [Bool.eq_iff_iff.mpr hsame]

/-- **The cycle test is exact.**  It has no answer exactly when an edge has an
end beyond the vertices.  Otherwise it answers whether a walk of at least one
edge comes back to where it began.  Only the number of vertices and the pairs of
ids that edges join matter to it, not what the vertices hold. -/
theorem hasCycle?_exact (graph : CanonicalGraph) :
    (graph.hasCycle? = none ↔ ∃ edge ∈ graph.edges,
        graph.vertices.length ≤ edge.source ∨ graph.vertices.length ≤ edge.target) ∧
      (∀ answer, graph.hasCycle? = some answer →
        (answer = true ↔ ∃ id walk, walk ≠ [] ∧ graph.Walk id walk id)) ∧
      ∀ other : CanonicalGraph, other.vertices.length = graph.vertices.length →
        (∀ source target, other.Adjacent source target ↔ graph.Adjacent source target) →
        other.hasCycle? = graph.hasCycle? := by
  refine ⟨hasCycle?_eq_none_iff, ?_, ?_⟩
  · intro answer hanswer
    rw [cyclic_of_hasCycle? hanswer, Cyclic]
    exact exists_congr fun id => transGen_adjacent_iff
  · intro other hlength hadjacent
    apply hasCycle?_congr hlength
    funext source target
    exact propext (hadjacent source target)

/-- Vertices whose ids say nothing about their places, two edges from the first
to the second, and a cycle that the first is not on. -/
def misnumbered : CanonicalGraph :=
  { vertices := [⟨7, .unknown, "main", "p.A"⟩, ⟨7, .unknown, "serve", "p.A"⟩,
      ⟨0, .unknown, "run", "p.B"⟩, ⟨9, .unknown, "idle", "p.B"⟩]
    edges := [⟨0, 1, some "data", none⟩, ⟨0, 1, some "control", none⟩, ⟨1, 2, none, none⟩,
      ⟨2, 1, none, some "CallSite@4"⟩]
    stats := {} }

/-- The same with ids that are places, one of the two edges, and no labels. -/
def renumbered : CanonicalGraph :=
  { vertices := [⟨0, .unknown, "main", "p.A"⟩, ⟨1, .unknown, "serve", "p.A"⟩,
      ⟨2, .unknown, "run", "p.B"⟩, ⟨3, .unknown, "idle", "p.B"⟩]
    edges := [⟨2, 1, none, none⟩, ⟨1, 2, none, none⟩, ⟨0, 1, none, none⟩]
    stats := {} }

theorem hasCycle?_misnumbered :
    misnumbered.hasCycle? = some true ∧ renumbered.hasCycle? = some true ∧
      { misnumbered with vertices := misnumbered.vertices.take 2 }.hasCycle? = none := by
  obtain ⟨hnone, hanswer, hsame⟩ := hasCycle?_exact misnumbered
  have hcycle : misnumbered.hasCycle? = some true := by
    have hthere : (⟨1, 2, none, none⟩ : CanonicalEdge) ∈ misnumbered.edges := by decide
    have hback : (⟨2, 1, none, some "CallSite@4"⟩ : CanonicalEdge) ∈ misnumbered.edges := by decide
    have hwalk : misnumbered.Walk 1 [⟨1, 2, none, none⟩, ⟨2, 1, none, some "CallSite@4"⟩] 1 :=
      .cons hthere (.cons hback (.nil _))
    cases hfound : misnumbered.hasCycle? with
    | none => exact absurd (hnone.mp hfound) (by decide)
    | some answer =>
        have htrue : answer = true :=
          (hanswer answer hfound).mpr ⟨1, _, List.cons_ne_nil _ _, hwalk⟩
        rw [htrue]
  have hadjacent : ∀ source target,
      renumbered.Adjacent source target ↔ misnumbered.Adjacent source target := by
    intro source target
    simp only [Adjacent, renumbered, misnumbered, List.mem_cons, List.not_mem_nil, or_false,
      exists_eq_or_imp, exists_eq_left]
    omega
  refine ⟨hcycle, (hsame renumbered rfl hadjacent).trans hcycle, ?_⟩
  obtain ⟨hbeyond, -, -⟩ :=
    hasCycle?_exact { misnumbered with vertices := misnumbered.vertices.take 2 }
  exact hbeyond.mpr ⟨⟨1, 2, none, none⟩, by decide, by decide⟩

end CanonicalGraph

end ProgramGraphs
