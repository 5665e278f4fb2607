import Mathlib.Data.List.Perm.Subperm
import Mathlib.Data.Set.Function
import ProgramGraphs.Canonical.Build
import ProgramGraphs.Proofs.Search.Ranks
import ProgramGraphs.Proofs.Search.Renaming

/-!
# The vertices of a canonical graph

The search of a dependency graph reaches exactly the statements to which a path
in scope leads from an entry in scope, and the vertices of the canonical graph
are these statements in the order of their discovery (`canonicalize_vertices_bijOn`).

`Searched` keeps the forest that the search grows.  The proofs about vertices
and edges take what they need from it: the reached statements are the nodes of
the forest, the number of a statement is its place in the preorder, and the
intervals that the edges are tested with are those of the forest.
-/

namespace ProgramGraphs.DependencyGraph

variable {S : Type}

/-- The graph lists the statement, and its class is in scope. -/
def InScope (graph : DependencyGraph S) (scope : Scope) (statement : S) : Prop :=
  statement ∈ graph.statements ∧ scope (graph.info statement).declaringClass = true

/-- A path on which every statement is in scope leads to the statement from an
entry. -/
def Reachable (graph : DependencyGraph S) (scope : Scope) (statement : S) : Prop :=
  ∃ entry ∈ graph.entries, graph.InScope scope entry ∧
    Relation.ReflTransGen
      (fun source target => target ∈ graph.successors source ∧ graph.InScope scope target)
      entry statement

theorem Reachable.inScope {graph : DependencyGraph S} {scope : Scope} {statement : S}
    (hreached : graph.Reachable scope statement) : graph.InScope scope statement := by
  obtain ⟨entry, -, hscope, hpath⟩ := hreached
  cases hpath with
  | refl => exact hscope
  | tail _ hstep => exact hstep.2

variable [BEq S] [Hashable S] [LawfulBEq S]

/-- The number of a reached statement: its rank in the order of discovery. -/
def number (graph : DependencyGraph S) (scope : Scope) (statement : S) : Nat :=
  (graph.traversal scope).discovered.idxOf statement

theorem whites_inScope (graph : DependencyGraph S) (scope : Scope) :
    DepthFirst.whites (graph.inScope scope) = {statement | graph.InScope scope statement} := by
  ext statement
  simp [DepthFirst.whites, inScope, InScope]

/-- The forest that the search of a dependency graph grows. -/
structure Searched (graph : DependencyGraph S) (scope : Scope) (forest : Forest S) : Prop where
  grows : Grows graph.successors {statement | graph.InScope scope statement} graph.entries forest
  traversal_eq : graph.traversal scope = ⟨forest.preorder, forest.postorder⟩

theorem exists_searched (graph : DependencyGraph S) (scope : Scope) :
    ∃ forest, graph.Searched scope forest := by
  obtain ⟨forest, hgrows, hsearch⟩ :=
    DepthFirst.search_grows (graph.inScope scope) graph.successors graph.entries
  rw [whites_inScope] at hgrows
  exact ⟨forest, hgrows, hsearch⟩

/-- The search grows no other forest. -/
theorem searched_of_grows {graph : DependencyGraph S} {scope : Scope} {forest : Forest S}
    (hgrows : Grows graph.successors {statement | graph.InScope scope statement} graph.entries
      forest) : graph.Searched scope forest := by
  obtain ⟨other, hsearched⟩ := graph.exists_searched scope
  exact hsearched.grows.unique hgrows ▸ hsearched

namespace Searched

variable {graph : DependencyGraph S} {scope : Scope} {forest : Forest S}

theorem mem_iff (hsearched : graph.Searched scope forest) {statement : S} :
    statement ∈ forest ↔ graph.Reachable scope statement :=
  hsearched.grows.mem_iff

theorem number_eq (hsearched : graph.Searched scope forest) (statement : S) :
    graph.number scope statement = forest.preorder.idxOf statement := by
  rw [number, hsearched.traversal_eq]

theorem inScope_of_mem (hsearched : graph.Searched scope forest) {statement : S}
    (hmem : statement ∈ forest) : graph.InScope scope statement :=
  hsearched.grows.mem_white hmem

theorem number_inj (hsearched : graph.Searched scope forest) {first second : S}
    (hmem : first ∈ forest) :
    graph.number scope first = graph.number scope second ↔ first = second := by
  rw [hsearched.number_eq, hsearched.number_eq]
  exact List.idxOf_inj hmem

/-- The rank table numbers the reached statements and no others. -/
theorem discover_eq (hsearched : graph.Searched scope forest) (statement : S) :
    (graph.traversal scope).ranks.discover[statement]? =
      if statement ∈ forest then some (graph.number scope statement) else none := by
  rw [hsearched.number_eq, hsearched.traversal_eq]
  exact DepthFirst.getElem?_ranks hsearched.grows.distinct statement

theorem discover_eq_some_iff (hsearched : graph.Searched scope forest) {statement : S}
    {rank : Nat} :
    (graph.traversal scope).ranks.discover[statement]? = some rank ↔
      statement ∈ forest ∧ graph.number scope statement = rank := by
  rw [hsearched.discover_eq]
  by_cases hmem : statement ∈ forest <;> simp [hmem]

/-- The intervals of the reached statements are those of the forest. -/
theorem interval?_eq (hsearched : graph.Searched scope forest) (statement : S) :
    (graph.traversal scope).ranks.interval? statement =
      if statement ∈ forest then some (forest.interval statement) else none := by
  rw [hsearched.traversal_eq]
  exact DepthFirst.interval?_eq hsearched.grows.distinct statement

theorem length_vertices (hsearched : graph.Searched scope forest) (policy : BackEdgePolicy)
    (labeler : Labeler S) :
    (graph.canonicalize scope policy labeler).vertices.length = forest.preorder.length := by
  simp [canonicalize, hsearched.traversal_eq]

/-- The vertex at a place is that of the statement with this number. -/
theorem getElem?_vertices (hsearched : graph.Searched scope forest) (policy : BackEdgePolicy)
    (labeler : Labeler S) (id : Nat) :
    (graph.canonicalize scope policy labeler).vertices[id]? =
      forest.preorder[id]?.map fun statement => graph.canonicalVertex statement id := by
  simp only [canonicalize, hsearched.traversal_eq, List.getElem?_map, List.getElem?_zipIdx,
    Nat.zero_add, Option.map_map]
  rfl

theorem getElem?_vertices_number (hsearched : graph.Searched scope forest)
    (policy : BackEdgePolicy) (labeler : Labeler S) {statement : S} (hmem : statement ∈ forest) :
    (graph.canonicalize scope policy labeler).vertices[graph.number scope statement]? =
      some (graph.canonicalVertex statement (graph.number scope statement)) := by
  have hlt := List.idxOf_lt_length_of_mem (Forest.mem_preorder.mpr hmem)
  rw [hsearched.getElem?_vertices, hsearched.number_eq, List.getElem?_eq_getElem hlt,
    List.getElem_idxOf hlt, Option.map_some]

/-- The search reaches no more statements than are in scope. -/
theorem length_le_size (hsearched : graph.Searched scope forest) :
    forest.preorder.length ≤ (graph.inScope scope).size := by
  rw [← Std.HashSet.length_toList]
  refine (List.subperm_of_subset hsearched.grows.distinct fun statement hmem => ?_).length_le
  have hwhite : statement ∈ DepthFirst.whites (graph.inScope scope) := by
    rw [whites_inScope]
    exact hsearched.inScope_of_mem hmem
  exact Std.HashSet.mem_toList.mpr hwhite

/-- Numbering the reached statements leaves no number out and uses none twice. -/
theorem bijOn_number (hsearched : graph.Searched scope forest) :
    Set.BijOn (graph.number scope) {statement | graph.Reachable scope statement}
      {id | id < forest.preorder.length} := by
  refine ⟨fun statement hreached => ?_, fun first hfirst second _ heq => ?_, fun id hlt => ?_⟩
  · rw [Set.mem_ofPred_eq, hsearched.number_eq]
    exact Forest.idxOf_preorder_lt (hsearched.mem_iff.mpr hreached)
  · exact (hsearched.number_inj (hsearched.mem_iff.mpr hfirst)).mp heq
  · refine ⟨forest.preorder[id], hsearched.mem_iff.mp (List.getElem_mem hlt), ?_⟩
    rw [hsearched.number_eq]
    exact hsearched.grows.distinct.idxOf_getElem id hlt

end Searched

theorem size_inScope_le (graph : DependencyGraph S) (scope : Scope) :
    (graph.inScope scope).size ≤ graph.statements.length :=
  Std.HashSet.size_ofList_le.trans (List.length_filter_le ..)

theorem length_vertices_le (graph : DependencyGraph S) (scope : Scope)
    (policy : BackEdgePolicy) (labeler : Labeler S) :
    (graph.canonicalize scope policy labeler).vertices.length ≤ graph.statements.length := by
  obtain ⟨forest, hsearched⟩ := graph.exists_searched scope
  calc (graph.canonicalize scope policy labeler).vertices.length
      = forest.preorder.length := hsearched.length_vertices policy labeler
    _ ≤ (graph.inScope scope).size := hsearched.length_le_size
    _ ≤ graph.statements.length := graph.size_inScope_le scope

/-- **The vertices are the reachable statements.**  The discovery ranks number
them without gaps, and the vertex with a number shows what the graph knows of
the statement. -/
theorem canonicalize_vertices_bijOn (graph : DependencyGraph S) (scope : Scope)
    (policy : BackEdgePolicy) (labeler : Labeler S) :
    let result := graph.canonicalize scope policy labeler
    let number := graph.number scope
    Set.BijOn number {statement | graph.Reachable scope statement}
        {id | id < result.vertices.length} ∧
      (∀ statement, graph.Reachable scope statement →
        result.vertices[number statement]? = some
          { id := number statement
            position := (graph.info statement).position
            method := (graph.info statement).method
            className := (ClassName.ofDescriptor
              (graph.info statement).declaringClass.name).qualified }) ∧
      (∀ (id : Nat) (vertex : CanonicalVertex), result.vertices[id]? = some vertex →
        vertex.id = id) ∧
      (∀ (statement : S) (rank : Nat),
        (graph.traversal scope).ranks.discover[statement]? = some rank ↔
          graph.Reachable scope statement ∧ number statement = rank) ∧
      result.stats.reached = result.vertices.length ∧
      result.vertices.length ≤ result.stats.applicationStatements ∧
      result.stats.applicationStatements ≤ result.stats.statements := by
  intro result number
  obtain ⟨forest, hsearched⟩ := graph.exists_searched scope
  have hlength : result.vertices.length = forest.preorder.length :=
    hsearched.length_vertices policy labeler
  refine ⟨?_, ?_, ?_, ?_, ?_, ?_, graph.size_inScope_le scope⟩
  · rw [hlength]
    exact hsearched.bijOn_number
  · intro statement hreached
    exact hsearched.getElem?_vertices_number policy labeler (hsearched.mem_iff.mpr hreached)
  · intro id vertex hvertex
    have hplace := (hsearched.getElem?_vertices policy labeler id).symm.trans hvertex
    obtain ⟨statement, -, rfl⟩ := Option.map_eq_some_iff.mp hplace
    rfl
  · intro statement rank
    rw [hsearched.discover_eq_some_iff, hsearched.mem_iff]
  · simp [result, canonicalize]
  · rw [hlength]
    exact hsearched.length_le_size

/-- Three statements in a row, the middle one in a class of the library. -/
def detour : DependencyGraph Nat :=
  { statements := [0, 1, 2]
    successors := fun statement => if statement < 2 then [statement + 1] else []
    entries := [0, 1]
    info := fun statement =>
      { declaringClass := { loader := if statement = 1 then "Primordial" else "Application" } }
    dependence := fun _ _ => none
    context := fun _ _ => none }

theorem eq_zero_of_reachable_detour {statement : Nat}
    (hreached : detour.Reachable ({} : LoaderScope).toScope statement) : statement = 0 := by
  have hlibrary : ¬ detour.InScope ({} : LoaderScope).toScope 1 := by
    rintro ⟨-, hclass⟩
    exact absurd hclass (by decide)
  obtain ⟨entry, hentry, hscope, hpath⟩ := hreached
  induction hpath with
  | refl =>
      rcases List.mem_pair.mp hentry with rfl | rfl
      · rfl
      · exact absurd hscope hlibrary
  | tail _ hstep ih =>
      subst ih
      obtain rfl := List.mem_singleton.mp hstep.1
      exact absurd hstep.2 hlibrary

theorem canonicalize_detour_vertices :
    let scope := ({} : LoaderScope).toScope
    let result := detour.canonicalize scope .anyNested detour.dependence
    detour.Reachable scope 0 ∧ ¬ detour.Reachable scope 2 ∧
      Set.BijOn (detour.number scope) {statement | detour.Reachable scope statement}
        {id | id < result.vertices.length} ∧
      result.vertices[detour.number scope 0]? = some
        { id := detour.number scope 0, position := .unknown, method := "", className := "" } := by
  intro scope result
  have hzero : detour.Reachable scope 0 :=
    ⟨0, List.mem_cons_self, ⟨List.mem_cons_self, by decide⟩, Relation.ReflTransGen.refl⟩
  obtain ⟨hbij, hvertices, -⟩ :=
    canonicalize_vertices_bijOn detour scope .anyNested detour.dependence
  exact ⟨hzero, fun htwo => absurd (eq_zero_of_reachable_detour htwo) (by decide), hbij,
    hvertices 0 hzero⟩

end ProgramGraphs.DependencyGraph
