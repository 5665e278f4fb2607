import ProgramGraphs.Proofs.FirstOccurrence
import ProgramGraphs.Snapshot.View

/-!
# The tables of a snapshot

A snapshot may list several edges between two statements; the first one counts.
`Records` says what the tables hold once a list of edges has been taken note of:
the first edge between any two statements, and for each statement its distinct
successors in the order in which the pairs are first listed.  Each edge keeps
it (`Records.addEdge`), so the tables of a whole snapshot have it, and for a
snapshot whose references were checked this is what its dependency graph shows
(`successors_of_validate`, `dependence_of_validate`, `context_of_validate`).
-/

namespace ProgramGraphs

namespace Snapshot

/-- The places of the two statements that an edge joins. -/
def Edge.ends (edge : Edge) : Nat × Nat := (edge.source.toNat, edge.target.toNat)

/-- The first of the edges between two statements. -/
def firstEdge? (edges : List Edge) (ends : Nat × Nat) : Option Edge :=
  edges.find? fun edge => edge.ends = ends

/-- The targets of the edges that leave a statement, each once, in the order in
which they are first listed. -/
def firstTargets (edges : List Edge) (source : Nat) : List Nat :=
  ((edges.map Edge.ends).eraseDups.filter fun ends => ends.1 = source).map Prod.snd

theorem mem_firstTargets {edges : List Edge} {source target : Nat} :
    target ∈ firstTargets edges source ↔ (source, target) ∈ edges.map Edge.ends := by
  rw [firstTargets, List.mem_map]
  constructor
  · rintro ⟨⟨first, second⟩, hends, rfl⟩
    obtain ⟨hmem, heq⟩ := List.mem_filter.mp hends
    obtain rfl : first = source := of_decide_eq_true heq
    exact List.mem_eraseDups.mp hmem
  · intro hmem
    exact ⟨(source, target),
      List.mem_filter.mpr ⟨List.mem_eraseDups.mpr hmem, decide_eq_true rfl⟩, rfl⟩

/-- The targets of a statement stand in the order in which the pairs are first
listed. -/
theorem pairwise_firstTargets (edges : List Edge) (source : Nat) :
    (firstTargets edges source).Pairwise fun first second =>
      (edges.map Edge.ends).idxOf (source, first) <
        (edges.map Edge.ends).idxOf (source, second) := by
  have hfrom : ∀ ends ∈ (edges.map Edge.ends).eraseDups.filter fun ends => ends.1 = source,
      (source, ends.2) = ends := by
    rintro ⟨first, target⟩ hends
    obtain rfl : first = source := of_decide_eq_true (List.mem_filter.mp hends).2
    rfl
  rw [firstTargets, List.pairwise_map]
  refine ((pairwise_idxOf_eraseDups _).filter _).imp_of_mem fun hfirst hsecond hlt => ?_
  rwa [hfrom _ hfirst, hfrom _ hsecond]

theorem nodup_firstTargets (edges : List Edge) (source : Nat) :
    (firstTargets edges source).Nodup := by
  refine (pairwise_firstTargets edges source).imp fun hlt heq => ?_
  rw [heq] at hlt
  exact Nat.lt_irrefl _ hlt

/-- The tables hold the edges that were taken note of. -/
structure Records (size : Nat) (seen : List Edge) (tables : Tables) : Prop where
  size_eq : tables.successors.size = size
  successors_eq : ∀ source < size,
    (tables.successors.getD source #[]).toList = firstTargets seen source
  edges_eq : ∀ ends, tables.edges[ends]? = firstEdge? seen ends

theorem firstEdge?_eq_none_iff {edges : List Edge} {ends : Nat × Nat} :
    firstEdge? edges ends = none ↔ ends ∉ edges.map Edge.ends := by
  simp [firstEdge?]

theorem firstEdge?_concat_of_mem {edges : List Edge} {edge : Edge}
    (hmem : edge.ends ∈ edges.map Edge.ends) (ends : Nat × Nat) :
    firstEdge? (edges ++ [edge]) ends = firstEdge? edges ends := by
  rw [firstEdge?, List.find?_append]
  by_cases heq : edge.ends = ends
  · obtain ⟨first, hfirst⟩ : ∃ first, firstEdge? edges ends = some first := by
      rw [← Option.ne_none_iff_exists', Ne, firstEdge?_eq_none_iff, not_not]
      exact heq ▸ hmem
    have hfind : edges.find? (fun edge => edge.ends = ends) = some first := hfirst
    rw [hfirst, hfind, Option.some_or]
  · simp [firstEdge?, heq]

theorem firstEdge?_concat_of_notMem {edges : List Edge} {edge : Edge}
    (hnew : edge.ends ∉ edges.map Edge.ends) (ends : Nat × Nat) :
    firstEdge? (edges ++ [edge]) ends =
      if edge.ends = ends then some edge else firstEdge? edges ends := by
  rw [firstEdge?, List.find?_append]
  by_cases heq : edge.ends = ends
  · have hnone : edges.find? (fun edge => edge.ends = ends) = none :=
      firstEdge?_eq_none_iff.mpr (heq ▸ hnew)
    simp [hnone, heq]
  · simp [firstEdge?, heq]

theorem firstTargets_concat_of_mem {edges : List Edge} {edge : Edge}
    (hmem : edge.ends ∈ edges.map Edge.ends) (source : Nat) :
    firstTargets (edges ++ [edge]) source = firstTargets edges source := by
  rw [firstTargets, List.map_append, List.map_singleton, eraseDups_concat, if_pos hmem]
  rfl

theorem firstTargets_concat_of_notMem {edges : List Edge} {edge : Edge}
    (hnew : edge.ends ∉ edges.map Edge.ends) (source : Nat) :
    firstTargets (edges ++ [edge]) source =
      firstTargets edges source ++ if edge.ends.1 = source then [edge.ends.2] else [] := by
  rw [firstTargets, List.map_append, List.map_singleton, eraseDups_concat, if_neg hnew,
    List.filter_append, List.map_append]
  by_cases heq : edge.ends.1 = source <;> simp [heq, firstTargets]

theorem Records.contains_iff {size : Nat} {seen : List Edge} {tables : Tables}
    (hrecords : Records size seen tables) (ends : Nat × Nat) :
    tables.edges.contains ends = true ↔ ends ∈ seen.map Edge.ends := by
  rw [Std.HashMap.contains_eq_isSome_getElem?, hrecords.edges_eq, Option.isSome_iff_ne_none, Ne,
    firstEdge?_eq_none_iff, not_not]

theorem Records.addEdge {size : Nat} {seen : List Edge} {tables : Tables}
    (hrecords : Records size seen tables) (edge : Edge) :
    Records size (seen ++ [edge]) (tables.addEdge edge) := by
  have hcontains := hrecords.contains_iff edge.ends
  by_cases hmem : edge.ends ∈ seen.map Edge.ends
  -- a later edge between the same statements changes nothing
  · have hsame : tables.addEdge edge = tables := if_pos (hcontains.mpr hmem)
    rw [hsame]
    refine ⟨hrecords.size_eq, fun source hsource => ?_, fun ends => ?_⟩
    · rw [firstTargets_concat_of_mem hmem, hrecords.successors_eq source hsource]
    · rw [hrecords.edges_eq, firstEdge?_concat_of_mem hmem]
  · have hpush : tables.addEdge edge =
        { tables with
          successors := tables.successors.modify edge.ends.1 (·.push edge.ends.2)
          edges := tables.edges.insert edge.ends edge } :=
      if_neg fun hin => hmem (hcontains.mp hin)
    rw [hpush]
    refine ⟨?_, fun source hsource => ?_, fun ends => ?_⟩
    · rw [Array.size_modify, hrecords.size_eq]
    · rw [firstTargets_concat_of_notMem hmem, ← hrecords.successors_eq source hsource]
      have hlt : source < tables.successors.size := by rwa [hrecords.size_eq]
      by_cases heq : edge.ends.1 = source
      · simp [heq, hlt, Array.getElem_modify]
      · simp [heq, Array.getElem?_modify]
    · rw [Std.HashMap.getElem?_insert, hrecords.edges_eq, firstEdge?_concat_of_notMem hmem]
      simp

theorem Records.foldl_addEdge {size : Nat} {seen : List Edge} {tables : Tables}
    (hrecords : Records size seen tables) (edges : List Edge) :
    Records size (seen ++ edges) (edges.foldl Tables.addEdge tables) := by
  induction edges generalizing seen tables with
  | nil =>
      rwa [List.append_nil]
  | cons edge edges ih =>
      rw [List.append_cons]
      exact ih (hrecords.addEdge edge)

theorem records_nil (size : Nat) (entries : List Nat) :
    Records size [] { successors := Array.replicate size #[], entries := entries } := by
  refine ⟨Array.size_replicate, fun source hsource => ?_, fun ends => ?_⟩
  · simp [hsource, firstTargets]
  · simp [firstEdge?]

theorem records_tables (graph : DependencySection) (entryPoints : List Index) :
    Records graph.statements.length graph.edges (graph.tables entryPoints) :=
  (records_nil _ _).foldl_addEdge graph.edges

theorem entries_foldl_addEdge (tables : Tables) (edges : List Edge) :
    (edges.foldl Tables.addEdge tables).entries = tables.entries := by
  induction edges generalizing tables with
  | nil => rfl
  | cons edge edges ih =>
      rw [List.foldl_cons, ih, Tables.addEdge]
      split <;> rfl

/-- Edges do not change where searches start. -/
theorem entries_tables (graph : DependencySection) (entryPoints : List Index) :
    (graph.tables entryPoints).entries = match graph.entries with
      | some entries => entries.map (·.toNat)
      | none => graph.deriveEntries entryPoints :=
  entries_foldl_addEdge _ _

/-! ## Checked snapshots -/

/-- The edges of the dependency graph; none when there is no such graph. -/
def edges (snapshot : Snapshot) : List Edge :=
  match snapshot.dependencyGraph with
  | some graph => graph.edges
  | none => []

section Validate

variable {snapshot : Snapshot} {view : View}

theorem validate_eq_ok (hvalid : snapshot.validate = .ok view) :
    (∀ reference ∈ snapshot.references, ¬ reference.Dangling) ∧
      view = ⟨snapshot, match snapshot.dependencyGraph with
        | some graph => graph.tables snapshot.callGraph.entryPoints
        | none => {}⟩ := by
  rw [validate] at hvalid
  split at hvalid
  · contradiction
  · rename_i hnone
    refine ⟨fun reference hreference => ?_, (Except.ok.inj hvalid).symm⟩
    exact of_decide_eq_false (Bool.not_eq_true _ ▸ List.find?_eq_none.mp hnone _ hreference)

theorem source_lt (hvalid : snapshot.validate = .ok view) {edge : Edge}
    (hedge : edge ∈ snapshot.edges) : edge.ends.1 < snapshot.statements.length := by
  obtain ⟨hchecked, -⟩ := validate_eq_ok hvalid
  cases hgraph : snapshot.dependencyGraph with
  | none => simp [edges, hgraph] at hedge
  | some graph =>
      simp only [edges, statements, hgraph] at hedge ⊢
      obtain ⟨owner, hplace⟩ := List.getElem?_of_mem hedge
      refine Nat.lt_of_not_le (hchecked ⟨.edgeSource, owner, edge.source, _⟩ ?_)
      simp only [references, hgraph, DependencySection.references, List.mem_append]
      refine Or.inr (Or.inl (Or.inr (List.mem_flatMap.mpr ⟨(edge, owner), ?_, ?_⟩)))
      · exact List.mk_mem_zipIdx_iff_getElem?.mpr hplace
      · exact List.mem_cons_self

theorem records_of_validate (hvalid : snapshot.validate = .ok view) :
    Records snapshot.statements.length snapshot.edges view.tables := by
  obtain ⟨-, rfl⟩ := validate_eq_ok hvalid
  cases hgraph : snapshot.dependencyGraph with
  | none =>
      simp only [statements, edges, hgraph]
      exact ⟨rfl, nofun, fun ends => by simp [firstEdge?]⟩
  | some graph =>
      simp only [statements, edges, hgraph]
      exact records_tables graph _

/-- The successors of a statement are the targets of its distinct edges. -/
theorem successors_of_validate (hvalid : snapshot.validate = .ok view) (source : Nat) :
    view.dependencyGraph.successors source = firstTargets snapshot.edges source := by
  have hrecords := records_of_validate hvalid
  rcases Nat.lt_or_ge source snapshot.statements.length with hlt | hge
  · exact hrecords.successors_eq source hlt
  -- beyond the statements the table is empty, and no checked edge starts there
  · have hnone : firstTargets snapshot.edges source = [] := by
      rw [List.eq_nil_iff_forall_not_mem]
      intro target htarget
      obtain ⟨edge, hedge, heq⟩ := List.mem_map.mp (mem_firstTargets.mp htarget)
      have hlt := source_lt hvalid hedge
      rw [heq] at hlt
      exact Nat.lt_irrefl _ (Nat.lt_of_lt_of_le hlt hge)
    have hempty : view.tables.successors.getD source #[] = #[] := by
      simp [hrecords.size_eq, hge]
    rw [hnone]
    exact congrArg Array.toList hempty

theorem dependence_of_validate (hvalid : snapshot.validate = .ok view) (source target : Nat) :
    view.dependencyGraph.dependence source target =
      (firstEdge? snapshot.edges (source, target)).bind (·.dependence) := by
  rw [← (records_of_validate hvalid).edges_eq]
  rfl

theorem context_of_validate (hvalid : snapshot.validate = .ok view) (source target : Nat) :
    view.dependencyGraph.context source target =
      (firstEdge? snapshot.edges (source, target)).bind (·.context) := by
  rw [← (records_of_validate hvalid).edges_eq]
  rfl

/-- A view shows the statements of its snapshot, the first edges between them, and
its entries, and nothing else. -/
theorem dependencyGraph_congr {other : Snapshot} {otherView : View}
    (hvalid : snapshot.validate = .ok view) (hother : other.validate = .ok otherView)
    (hnodes : other.nodeInfos = snapshot.nodeInfos)
    (hstatements : other.statements = snapshot.statements)
    (htargets : ∀ source, firstTargets other.edges source = firstTargets snapshot.edges source)
    (hedges : ∀ ends, firstEdge? other.edges ends = firstEdge? snapshot.edges ends)
    (hentries : otherView.tables.entries = view.tables.entries) :
    otherView.dependencyGraph = view.dependencyGraph := by
  have hinfos : otherView.statementInfos = view.statementInfos := by
    obtain ⟨-, rfl⟩ := validate_eq_ok hvalid
    obtain ⟨-, rfl⟩ := validate_eq_ok hother
    simp only [View.statementInfos, hstatements, hnodes]
  have hsuccessors : otherView.dependencyGraph.successors = view.dependencyGraph.successors := by
    funext source
    rw [successors_of_validate hvalid, successors_of_validate hother, htargets]
  have hdependence : otherView.dependencyGraph.dependence = view.dependencyGraph.dependence := by
    funext source target
    rw [dependence_of_validate hvalid, dependence_of_validate hother, hedges]
  have hcontext : otherView.dependencyGraph.context = view.dependencyGraph.context := by
    funext source target
    rw [context_of_validate hvalid, context_of_validate hother, hedges]
  simp only [View.dependencyGraph, DependencyGraph.mk.injEq]
  exact ⟨by rw [hinfos], hsuccessors, hentries, by rw [hinfos], hdependence, hcontext⟩

end Validate

end Snapshot

end ProgramGraphs
