import ProgramGraphs.Proofs.Canonical.Acyclic
import ProgramGraphs.Proofs.Search.Sequence

/-!
# What the entries of a dependency graph decide

Every statement that a search reaches is an entry or stands right below another
statement, which has a smaller number, and the edge between the two is emitted.
So dropping back edges disconnects nothing: from the vertices of the entries the
emitted edges lead to all others (`canonicalize_connected`).

Further entries come after all others.  They add trees behind those of the
search without them (`Searched.exists_append`); numbers and intervals of the old
statements stay, and so does every link that leaves one of them.  The canonical
graph grows at its end only (`canonicalize_append_entries`).
-/

namespace ProgramGraphs.DependencyGraph

variable {S : Type} [BEq S] [Hashable S] [LawfulBEq S]

/-! ## Connected vertices -/

/-- The ids of the entries in scope. -/
def entryIds (graph : DependencyGraph S) (scope : Scope) : Set Nat :=
  {id | ∃ entry ∈ graph.entries, graph.InScope scope entry ∧
    (graph.traversal scope).ranks.discover[entry]? = some id}

namespace Searched

variable {graph : DependencyGraph S} {scope : Scope} {forest : Forest S}

/-- A statement right below another one was discovered after it. -/
theorem number_lt_of_leads (hsearched : graph.Searched scope forest) {parent child : S}
    (hleads : Leads graph.successors forest parent child) :
    graph.number scope parent < graph.number scope child := by
  obtain ⟨-, hunder, hne⟩ := hleads
  obtain ⟨hchild, hparent⟩ := hunder.mem
  have hinside := (Forest.under_iff_nested hsearched.grows.distinct hchild hparent).mp hunder
  have hle : graph.number scope parent ≤ graph.number scope child := by
    rw [hsearched.number_eq, hsearched.number_eq]
    exact hinside.1
  exact Nat.lt_of_le_of_ne hle fun heq => hne ((hsearched.number_inj hparent).mp heq).symm

/-- The vertices are those of the reached statements. -/
theorem exists_statement (hsearched : graph.Searched scope forest) {policy : BackEdgePolicy}
    {labeler : Labeler S} {vertex : CanonicalVertex}
    (hvertex : vertex ∈ (graph.canonicalize scope policy labeler).vertices) :
    ∃ statement ∈ forest, vertex.id = graph.number scope statement := by
  obtain ⟨id, hplace⟩ := List.getElem?_of_mem hvertex
  rw [hsearched.getElem?_vertices, Option.map_eq_some_iff] at hplace
  obtain ⟨statement, hstatement, rfl⟩ := hplace
  obtain ⟨hlt, rfl⟩ := List.getElem?_eq_some_iff.mp hstatement
  refine ⟨forest.preorder[id], List.getElem_mem hlt, ?_⟩
  rw [hsearched.number_eq]
  exact (hsearched.grows.distinct.idxOf_getElem id hlt).symm

theorem exists_vertex_of_adjacent (hsearched : graph.Searched scope forest)
    {policy : BackEdgePolicy} {labeler : Labeler S} {id target : Nat}
    (hadjacent : (graph.canonicalize scope policy labeler).Adjacent id target) :
    ∃ vertex ∈ (graph.canonicalize scope policy labeler).vertices, vertex.id = id := by
  obtain ⟨edge, hedge, rfl, -⟩ := hadjacent
  obtain ⟨link, hlink, -, rfl⟩ := hsearched.mem_edges_iff.mp hedge
  have hsource := (hsearched.mem_links.mp hlink).1
  have hplace := hsearched.getElem?_vertices_number policy labeler hsource
  exact ⟨_, List.mem_of_getElem? hplace, rfl⟩

/-- Every vertex is that of an entry, or an emitted edge enters it from a vertex
with a smaller id. -/
theorem entry_or_entered (hsearched : graph.Searched scope forest) {policy : BackEdgePolicy}
    {labeler : Labeler S} {vertex : CanonicalVertex}
    (hvertex : vertex ∈ (graph.canonicalize scope policy labeler).vertices) :
    vertex.id ∈ graph.entryIds scope ∨
      ∃ id < vertex.id, (graph.canonicalize scope policy labeler).Adjacent id vertex.id := by
  obtain ⟨statement, hmem, hid⟩ := hsearched.exists_statement hvertex
  rcases hsearched.grows.pending_or_leads hmem with hentry | ⟨parent, hleads⟩
  · refine Or.inl ⟨statement, hentry, hsearched.inScope_of_mem hmem, ?_⟩
    rw [hsearched.discover_eq, if_pos hmem, hid]
  · rw [hid]
    exact Or.inr ⟨_, hsearched.number_lt_of_leads hleads, hsearched.adjacent_of_leads hleads⟩

end Searched

/-- **Dropping back edges disconnects nothing.**  Every vertex is that of an entry
in scope, or an emitted edge enters it from a vertex with a smaller id.  So every
vertex is reached from that of an entry along emitted edges. -/
theorem canonicalize_connected (graph : DependencyGraph S) (scope : Scope)
    (policy : BackEdgePolicy) (labeler : Labeler S) :
    let result := graph.canonicalize scope policy labeler
    (∀ vertex ∈ result.vertices, vertex.id ∈ graph.entryIds scope ∨
        ∃ id < vertex.id, result.Adjacent id vertex.id) ∧
      ∀ vertex ∈ result.vertices, ∃ start ∈ result.vertices, start.id ∈ graph.entryIds scope ∧
        Relation.ReflTransGen result.Adjacent start.id vertex.id := by
  intro result
  obtain ⟨forest, hsearched⟩ := graph.exists_searched scope
  have hentered : ∀ vertex ∈ result.vertices, vertex.id ∈ graph.entryIds scope ∨
      ∃ id < vertex.id, result.Adjacent id vertex.id := fun vertex hvertex =>
    hsearched.entry_or_entered hvertex
  refine ⟨hentered, fun vertex hvertex => ?_⟩
  -- ids fall along the edges that are followed backwards, so an entry is met
  induction hid : vertex.id using Nat.strong_induction_on generalizing vertex with
  | _ id ih =>
      subst hid
      rcases hentered vertex hvertex with hentry | ⟨id, hlt, hadjacent⟩
      · exact ⟨vertex, hvertex, hentry, Relation.ReflTransGen.refl⟩
      · obtain ⟨source, hsource, rfl⟩ := hsearched.exists_vertex_of_adjacent hadjacent
        obtain ⟨start, hstart, hentry, hpath⟩ := ih source.id hlt source hsource rfl
        exact ⟨start, hstart, hentry, hpath.tail hadjacent⟩

theorem not_mem_entryIds_tangle : 2 ∉ tangle.entryIds fun _ => true := by
  rintro ⟨entry, hentry, -, hrank⟩
  obtain ⟨forest, hsearched⟩ := tangle.exists_searched fun _ => true
  obtain ⟨-, hnumber⟩ := hsearched.discover_eq_some_iff.mp hrank
  rw [number, traversal_tangle] at hnumber
  rcases List.mem_pair.mp hentry with rfl | rfl <;> exact absurd hnumber (by decide)

theorem canonicalize_tangle_connected :
    let result := tangle.canonicalize (fun _ => true) .anyNested tangle.dependence
    2 ∉ tangle.entryIds (fun _ => true) ∧ (∃ id < 2, result.Adjacent id 2) ∧
      ∃ start ∈ result.vertices, start.id ∈ tangle.entryIds (fun _ => true) ∧
        Relation.ReflTransGen result.Adjacent start.id 2 := by
  intro result
  obtain ⟨hentered, hreached⟩ :=
    canonicalize_connected tangle (fun _ => true) .anyNested tangle.dependence
  have hvertex : tangle.canonicalVertex 2 2 ∈ result.vertices := by
    simp [result, canonicalize, traversal_tangle]
  refine ⟨not_mem_entryIds_tangle, ?_, hreached _ hvertex⟩
  exact (hentered _ hvertex).resolve_left not_mem_entryIds_tangle

/-! ## More entries -/

/-- The same graph with other entries. -/
def startingFrom (graph : DependencyGraph S) (entries : List S) : DependencyGraph S :=
  { graph with entries := entries }

namespace Searched

variable {graph : DependencyGraph S} {scope : Scope} {entries extra : List S}
  {first later : Forest S}

/-- The forest of a search from more entries begins with that of the search from
the first ones. -/
theorem exists_append (graph : DependencyGraph S) (scope : Scope) (entries extra : List S) :
    ∃ first later, (graph.startingFrom entries).Searched scope first ∧
      (graph.startingFrom (entries ++ extra)).Searched scope (first.append later) ∧
      Grows graph.successors ({statement | graph.InScope scope statement} \ {node | node ∈ first})
        extra later := by
  obtain ⟨forest, hsearched⟩ := (graph.startingFrom (entries ++ extra)).exists_searched scope
  obtain ⟨first, later, rfl, hfirst, hlater⟩ := hsearched.grows.split
  obtain ⟨alone, halone⟩ := (graph.startingFrom entries).exists_searched scope
  obtain rfl : alone = first := halone.grows.unique hfirst
  exact ⟨alone, later, halone, hsearched, hlater⟩

theorem number_append (hfirst : (graph.startingFrom entries).Searched scope first)
    (hboth : (graph.startingFrom (entries ++ extra)).Searched scope (first.append later))
    {statement : S} (hmem : statement ∈ first) :
    (graph.startingFrom (entries ++ extra)).number scope statement =
      (graph.startingFrom entries).number scope statement := by
  rw [hboth.number_eq, hfirst.number_eq, Forest.preorder_append, List.idxOf_append_of_mem hmem]

theorem vertices_append (hfirst : (graph.startingFrom entries).Searched scope first)
    (hboth : (graph.startingFrom (entries ++ extra)).Searched scope (first.append later))
    (policy : BackEdgePolicy) (labeler : Labeler S) :
    ((graph.startingFrom entries).canonicalize scope policy labeler).vertices <+:
      ((graph.startingFrom (entries ++ extra)).canonicalize scope policy labeler).vertices := by
  simp only [canonicalize, hfirst.traversal_eq, hboth.traversal_eq, Forest.preorder_append,
    List.zipIdx_append, List.map_append]
  exact List.prefix_append _ _

/-- The links between the statements of the first search come first. -/
theorem links_append (hfirst : (graph.startingFrom entries).Searched scope first)
    (hboth : (graph.startingFrom (entries ++ extra)).Searched scope (first.append later))
    (hlater : Grows graph.successors
      ({statement | graph.InScope scope statement} \ {node | node ∈ first}) extra later) :
    (graph.startingFrom entries).links scope <+:
      (graph.startingFrom (entries ++ extra)).links scope := by
  rw [hboth.links_eq, hfirst.links_eq, Forest.postorder_append, List.flatMap_append]
  -- no link leads from a statement of the first search to one that came later
  have hold : (first.postorder.flatMap fun source =>
      ((graph.successors source).filter (· ∈ first.append later)).map (source, ·)) =
      first.postorder.flatMap fun source =>
        ((graph.successors source).filter (· ∈ first)).map (source, ·) := by
    refine List.flatMap_congr fun source hsource => ?_
    refine congrArg (List.map _) (List.filter_congr fun target htarget => ?_)
    have hnew : target ∉ later :=
      hfirst.grows.not_mem_later hlater (Forest.mem_postorder.mp hsource) htarget
    simp only [Forest.mem_append, hnew, or_false]
  exact hold ▸ List.prefix_append _ _

/-- The edges between the statements of the first search come first. -/
theorem edges_append (hfirst : (graph.startingFrom entries).Searched scope first)
    (hboth : (graph.startingFrom (entries ++ extra)).Searched scope (first.append later))
    (hlater : Grows graph.successors
      ({statement | graph.InScope scope statement} \ {node | node ∈ first}) extra later)
    (policy : BackEdgePolicy) (labeler : Labeler S) :
    ((graph.startingFrom entries).canonicalize scope policy labeler).edges <+:
      ((graph.startingFrom (entries ++ extra)).canonicalize scope policy labeler).edges := by
  obtain ⟨new, hnew⟩ := hfirst.links_append hboth hlater
  rw [hfirst.edges_eq, hboth.edges_eq, keptLinks, keptLinks, ← hnew, List.filter_append,
    List.map_append]
  -- policies decide by intervals, which the later trees do not move
  have hdrops : ∀ link ∈ (graph.startingFrom entries).links scope,
      (graph.startingFrom (entries ++ extra)).drops policy (first.append later) link =
        (graph.startingFrom entries).drops policy first link := by
    rintro ⟨source, target⟩ hlink
    obtain ⟨hsource, -, htarget⟩ := hfirst.mem_links.mp hlink
    rw [drops, Forest.dependence, Forest.interval_append hsource, Forest.interval_append htarget]
    rfl
  have hedges : ∀ link ∈ (graph.startingFrom entries).links scope,
      (graph.startingFrom (entries ++ extra)).canonicalLink scope labeler link =
        (graph.startingFrom entries).canonicalLink scope labeler link := by
    rintro ⟨source, target⟩ hlink
    obtain ⟨hsource, -, htarget⟩ := hfirst.mem_links.mp hlink
    rw [canonicalLink, hfirst.number_append hboth hsource, hfirst.number_append hboth htarget]
    rfl
  rw [List.filter_congr fun link hlink => congrArg (!·) (hdrops link hlink),
    List.map_congr_left fun link hlink => hedges link (List.mem_of_mem_filter hlink)]
  exact List.prefix_append _ _

end Searched

/-- **Further entries only extend a canonical graph.**  The vertices and the edges
that there were without them come first and keep their ids, and where the further
entries in scope were reached before, nothing changes. -/
theorem canonicalize_append_entries (graph : DependencyGraph S) (scope : Scope)
    (policy : BackEdgePolicy) (labeler : Labeler S) (entries extra : List S) :
    let before := (graph.startingFrom entries).canonicalize scope policy labeler
    let after := (graph.startingFrom (entries ++ extra)).canonicalize scope policy labeler
    before.vertices <+: after.vertices ∧ before.edges <+: after.edges ∧
      ((∀ statement ∈ extra, graph.InScope scope statement →
        (graph.startingFrom entries).Reachable scope statement) → after = before) := by
  intro before after
  obtain ⟨first, later, hfirst, hboth, hlater⟩ :=
    Searched.exists_append graph scope entries extra
  refine ⟨hfirst.vertices_append hboth policy labeler,
    hfirst.edges_append hboth hlater policy labeler, fun hreached => ?_⟩
  have hempty : later = .empty := hlater.eq_empty fun statement hextra hwhite =>
    hwhite.2 (hfirst.mem_iff.mpr (hreached statement hextra hwhite.1))
  have htraversal : (graph.startingFrom (entries ++ extra)).traversal scope =
      (graph.startingFrom entries).traversal scope := by
    rw [hboth.traversal_eq, hfirst.traversal_eq, hempty, Forest.append_empty]
  simp only [before, after, canonicalize, htraversal]
  rfl

theorem reachable_tangle_two :
    (tangle.startingFrom [0]).Reachable (fun _ => true) 2 := by
  have hscope : ∀ statement < 4,
      (tangle.startingFrom [0]).InScope (fun _ => true) statement := fun statement hlt =>
    ⟨List.mem_range.mpr hlt, rfl⟩
  refine ⟨0, List.mem_cons_self, hscope 0 (by decide), ?_⟩
  have hone : 1 ∈ tangle.successors 0 := by decide
  have htwo : 2 ∈ tangle.successors 1 := by decide
  exact Relation.ReflTransGen.tail (b := 1) (.single ⟨hone, hscope 1 (by decide)⟩)
    ⟨htwo, hscope 2 (by decide)⟩

/-- The second entry adds the last statement, and its edge to the second one. -/
theorem canonicalize_tangle_append_entries :
    let canonical := fun entries =>
      (tangle.startingFrom entries).canonicalize (fun _ => true) .anyNested tangle.dependence
    (canonical [0]).vertices <+: (canonical [0, 3]).vertices ∧
      (canonical [0, 3]).vertices =
        (canonical [0]).vertices ++ [tangle.canonicalVertex 3 3] ∧
      (canonical [0]).edges <+: (canonical [0, 3]).edges ∧
      (canonical [0, 3]).edges = (canonical [0]).edges ++ [⟨3, 1, none, none⟩] ∧
      canonical [0, 2] = canonical [0] := by
  intro canonical
  obtain ⟨hvertices, hedges, -⟩ :=
    canonicalize_append_entries tangle (fun _ => true) .anyNested tangle.dependence [0] [3]
  obtain ⟨-, -, hsame⟩ :=
    canonicalize_append_entries tangle (fun _ => true) .anyNested tangle.dependence [0] [2]
  have hbefore : (tangle.startingFrom [0]).traversal (fun _ => true) = ⟨[0, 1, 2], [2, 1, 0]⟩ := by
    simp [tangle, startingFrom, traversal, inScope, DepthFirst.search, DepthFirst.visitRoot,
      DepthFirst.follow]
  have hafter : (tangle.startingFrom [0, 3]).traversal (fun _ => true) =
      ⟨[0, 1, 2, 3], [2, 1, 0, 3]⟩ := traversal_tangle
  refine ⟨hvertices, ?_, hedges, ?_, hsame fun statement hextra _ => ?_⟩
  · simp only [canonical, canonicalize, hbefore, hafter]
    rfl
  · simp only [canonical, edges_of_traversal hbefore, edges_of_traversal hafter]
    decide
  · obtain rfl := List.mem_singleton.mp hextra
    exact reachable_tangle_two

end ProgramGraphs.DependencyGraph
