import ProgramGraphs.Proofs.Canonical.Acyclic
import ProgramGraphs.Proofs.Class.History
import ProgramGraphs.Proofs.Snapshot.Edges
import ProgramGraphs.Record.Graphs

/-!
# Records refer to their vertices soundly

A record names its vertices by texts, and its edges refer to them by these.  In
the records of both kinds of graphs no two vertices have one name, both ends of
an edge name a vertex, and no two edges have the same ends (`toRecord_sound`).

The two kinds come to this by different ways.  A class graph keeps its vertices
apart by the very names that are exported, and has an edge for each pair of
names that some call joined.  A canonical graph exports numbers: what keeps them
apart is that the search numbers no two statements alike, and what keeps its
edges apart is that no successor of a statement is listed twice.
-/

namespace ProgramGraphs

/-- Each edge of a record leads from one of its vertices to another one, and no
two edges have the same ends. -/
structure GraphRecord.Sound (graph : GraphRecord) : Prop where
  nodup_ids : (graph.vertices.map (·.id)).Nodup
  /-- The source of an edge is the id of exactly one vertex. -/
  count_source : ∀ edge ∈ graph.edges, (graph.vertices.map (·.id)).count edge.source = 1
  /-- The target of an edge is the id of exactly one vertex. -/
  count_target : ∀ edge ∈ graph.edges, (graph.vertices.map (·.id)).count edge.target = 1
  source_ne_target : ∀ edge ∈ graph.edges, edge.source ≠ edge.target
  nodup_ends : (graph.edges.map fun edge => (edge.source, edge.target)).Nodup

/-- Where ids are distinct it is enough that ends of edges are ids. -/
theorem GraphRecord.Sound.of_mem {graph : GraphRecord}
    (hids : (graph.vertices.map (·.id)).Nodup)
    (hends : ∀ edge ∈ graph.edges, edge.source ∈ graph.vertices.map (·.id) ∧
      edge.target ∈ graph.vertices.map (·.id) ∧ edge.source ≠ edge.target)
    (hnodup : (graph.edges.map fun edge => (edge.source, edge.target)).Nodup) : graph.Sound where
  nodup_ids := hids
  count_source edge hedge := List.count_eq_one_of_mem hids (hends edge hedge).1
  count_target edge hedge := List.count_eq_one_of_mem hids (hends edge hedge).2.1
  source_ne_target edge hedge := (hends edge hedge).2.2
  nodup_ends := hnodup

/-! ## Class graphs -/

namespace ClassGraph

theorem map_id_toRecord (graph : ClassGraph) :
    graph.toRecord.vertices.map (·.id) = graph.vertices.toList.map (·.className) := by
  rw [toRecord, List.map_map]
  rfl

theorem map_ends_toRecord (graph : ClassGraph) :
    graph.toRecord.edges.map (fun edge => (edge.source, edge.target)) =
      graph.edges.map endNames := by
  rw [toRecord, List.map_map]
  rfl

variable {classes : List ClassVertex} {calls : List ObservedCall} {graph : ClassGraph}

/-- The ends of an edge are those of a call that was counted. -/
theorem Tallies.mem_endNames (htallies : Tallies classes calls graph) {ends : String × String}
    (hends : ends ∈ graph.edges.map endNames) : ∃ call ∈ calls, call.ends = ends := by
  have hnames : graph.edges.map endNames = (calls.map ObservedCall.ends).eraseDups :=
    htallies.map_edges
  rw [hnames, List.mem_eraseDups] at hends
  exact List.mem_map.mp hends

/-- The records of a tally are sound when the calls that it counts leave their classes. -/
theorem Tallies.sound_toRecord (htallies : Tallies classes calls graph)
    (hcross : ∀ call ∈ calls, call.Crosses) : graph.toRecord.Sound := by
  have hids : graph.toRecord.vertices.map (·.id) = names classes :=
    graph.map_id_toRecord.trans htallies.lists.map_vertices
  refine .of_mem (hids ▸ nodup_names classes) (fun edge hedge => ?_) ?_
  · have hends : (edge.source, edge.target) ∈ graph.edges.map endNames := by
      rw [← map_ends_toRecord]
      exact List.mem_map_of_mem hedge
    obtain ⟨call, hcall, heq⟩ := htallies.mem_endNames hends
    obtain ⟨hsource, htarget⟩ := Prod.mk.inj heq
    obtain ⟨hsourceNamed, htargetNamed⟩ := htallies.namedIn call hcall
    rw [hids, ← hsource, ← htarget]
    exact ⟨hsourceNamed, htargetNamed, hcross call hcall⟩
  · rw [map_ends_toRecord]
    exact htallies.nodup_endNames

theorem sound_after (changes : List Change) : (after changes).toRecord.Sound :=
  (tallies_after changes).sound_toRecord fun _ hcall => (mem_crossingsIn.mp hcall).2

end ClassGraph

/-! ## Canonical graphs -/

theorem toString_inj {m n : Nat} : toString m = toString n ↔ m = n := Nat.repr_inj

/-- The digits of a number hold no comma. -/
theorem comma_notMem_toString (n : Nat) : ',' ∉ (toString n).toList := by
  intro hcomma
  have hdigit : ',' ∈ Nat.toDigits 10 n := Nat.toList_repr ▸ hcomma
  exact absurd (Nat.isDigit_of_mem_toDigits (by decide) (by decide) hdigit) (by decide)

namespace CanonicalEdge

theorem get?_between (edge : CanonicalEdge) :
    edge.toRecord.attributes.get? "between" = some (.text edge.between) := rfl

/-- The text of both ends falls into the two ids again. -/
theorem splitOn_between (edge : CanonicalEdge) :
    edge.between.toList.splitOn ',' =
      [edge.toRecord.source.toList, edge.toRecord.target.toList] := by
  have hjoined : edge.between.toList =
      [','].intercalate [(toString edge.source).toList, (toString edge.target).toList] := by
    rw [between, String.toList_append, String.toList_append, List.append_assoc]
    simp only [List.intercalate, List.intersperse, List.flatten_cons, List.flatten_nil,
      List.append_nil]
    rfl
  have hnone : ∀ id ∈ [(toString edge.source).toList, (toString edge.target).toList],
      ',' ∉ id := by
    simp only [List.mem_cons, List.not_mem_nil, or_false, forall_eq_or_imp, forall_eq]
    exact ⟨comma_notMem_toString _, comma_notMem_toString _⟩
  rw [hjoined, List.splitOn_intercalate _ hnone (List.cons_ne_nil _ _)]
  rfl

end CanonicalEdge

namespace CanonicalGraph

/-- A canonical graph numbers its vertices by their places, and each of its edges
joins two different ones. -/
theorem sound_toRecord {graph : CanonicalGraph}
    (hids : graph.vertices.map (·.id) = List.range graph.vertices.length)
    (hends : ∀ edge ∈ graph.edges, edge.source < graph.vertices.length ∧
      edge.target < graph.vertices.length ∧ edge.source ≠ edge.target)
    (hnodup : (graph.edges.map fun edge => (edge.source, edge.target)).Nodup) :
    graph.toRecord.Sound := by
  have hnames : graph.toRecord.vertices.map (·.id) =
      (List.range graph.vertices.length).map toString := by
    rw [← hids, toRecord, List.map_map, List.map_map]
    rfl
  have hpairs : graph.toRecord.edges.map (fun edge => (edge.source, edge.target)) =
      (graph.edges.map fun edge => (edge.source, edge.target)).map
        (Prod.map toString toString) := by
    rw [toRecord, List.map_map, List.map_map]
    rfl
  have hinj : Function.Injective (toString : Nat → String) := fun _ _ => toString_inj.mp
  refine .of_mem ?_ (fun edge hedge => ?_) ?_
  · rw [hnames]
    exact List.nodup_range.map hinj
  · obtain ⟨edge, hmem, rfl⟩ := List.mem_map.mp hedge
    obtain ⟨hsource, htarget, hne⟩ := hends edge hmem
    rw [hnames]
    exact ⟨List.mem_map_of_mem (List.mem_range.mpr hsource),
      List.mem_map_of_mem (List.mem_range.mpr htarget), fun heq => hne (hinj heq)⟩
  · rw [hpairs]
    exact hnodup.map (hinj.prodMap hinj)

end CanonicalGraph

namespace DependencyGraph

variable {S : Type} [BEq S] [Hashable S] [LawfulBEq S]

theorem map_id_vertices (graph : DependencyGraph S) (scope : Scope) (policy : BackEdgePolicy)
    (labeler : Labeler S) :
    (graph.canonicalize scope policy labeler).vertices.map (·.id) =
      List.range (graph.canonicalize scope policy labeler).vertices.length := by
  simp only [canonicalize, List.map_map, List.length_map, List.length_zipIdx]
  exact (List.zipIdx_map_snd 0 _).trans List.range_eq_range'.symm

/-- An edge never leads from a statement to itself: such a link is nested and
stays in one method, so every policy drops it. -/
theorem Searched.source_ne_target {graph : DependencyGraph S} {scope : Scope} {forest : Forest S}
    (hsearched : graph.Searched scope forest) {policy : BackEdgePolicy}
    {labeler : Labeler S} {edge : CanonicalEdge}
    (hedge : edge ∈ (graph.canonicalize scope policy labeler).edges) :
    edge.source ≠ edge.target := by
  obtain ⟨⟨source, target⟩, hlink, hkept, rfl⟩ := hsearched.mem_edges_iff.mp hedge
  intro heq
  obtain rfl := (hsearched.number_inj (hsearched.mem_links.mp hlink).1).mp heq
  have hdropped : graph.drops policy forest (source, source) = true :=
    drops_iff.mpr ⟨⟨Nat.le_refl _, Nat.le_refl _⟩, fun _ => ⟨rfl, rfl⟩⟩
  exact absurd hdropped (by simp [hkept])

/-- The edge out of the entry is kept: nothing was discovered before the entry. -/
theorem kept_doubled {view : Snapshot.View} (hvalid : Snapshot.doubled.validate = .ok view)
    (policy : BackEdgePolicy) (labeler : Labeler Nat) :
    ∃ edge ∈ (view.dependencyGraph.canonicalize ({} : LoaderScope).toScope policy labeler).edges,
      edge.source = 0 := by
  have hsearched := Snapshot.searched_doubled hvalid
  have hlink : (0, 2) ∈ view.dependencyGraph.links ({} : LoaderScope).toScope := by
    rw [Snapshot.links_doubled hvalid]
    decide
  have hkept : view.dependencyGraph.drops policy (.tree 0 (.tree 2 .empty .empty) .empty) (0, 2) =
      false := by
    rw [← Bool.not_eq_true, drops_iff]
    exact fun ⟨hnested, _⟩ => absurd hnested.1 (by decide)
  exact ⟨_, hsearched.mem_edges_iff.mpr ⟨_, hlink, hkept, rfl⟩, hsearched.number_eq 0⟩

end DependencyGraph

/-- **Exported records are sound**: those of every class graph, whatever classes
were added and calls observed, and those of the canonical graph of every checked
snapshot.  In the latter, each edge also shows its two ends, joined by a comma. -/
theorem toRecord_sound :
    (∀ changes, (ClassGraph.after changes).toRecord.Sound) ∧
      ∀ (snapshot : Snapshot) (view : Snapshot.View), snapshot.validate = .ok view →
        ∀ (scope : Scope) (policy : BackEdgePolicy) (labeler : Labeler Nat),
          let record := (view.dependencyGraph.canonicalize scope policy labeler).toRecord
          record.Sound ∧ ∀ edge ∈ record.edges, ∃ text,
            edge.attributes.get? "between" = some (.text text) ∧
              text.toList.splitOn ',' = [edge.source.toList, edge.target.toList] := by
  refine ⟨ClassGraph.sound_after, fun snapshot view hvalid scope policy labeler => ⟨?_, ?_⟩⟩
  · obtain ⟨forest, hsearched⟩ := view.dependencyGraph.exists_searched scope
    refine CanonicalGraph.sound_toRecord (view.dependencyGraph.map_id_vertices scope policy labeler)
      (fun edge hedge => ?_)
      (hsearched.nodup_edges (Snapshot.nodup_successors hvalid) policy labeler)
    obtain ⟨hsource, htarget⟩ := hsearched.ends_lt hedge
    exact ⟨hsource, htarget, hsearched.source_ne_target hedge⟩
  · intro edge hedge
    obtain ⟨edge, -, rfl⟩ := List.mem_map.mp hedge
    exact ⟨edge.between, edge.get?_between, edge.splitOn_between⟩

theorem toRecord_sound_doubled :
    (ClassGraph.after ClassGraph.reunion).toRecord.Sound ∧
      ∃ view, Snapshot.doubled.validate = .ok view ∧
        let graph := view.dependencyGraph
        let record := (graph.canonicalize ({} : LoaderScope).toScope .sameMethod
          (graph.labeler .feature)).toRecord
        record.Sound ∧ ∃ edge ∈ record.edges, ∃ text,
          edge.attributes.get? "between" = some (.text text) ∧
            text.toList.splitOn ',' = [['0'], edge.target.toList] := by
  obtain ⟨view, hvalid⟩ : ∃ view, Snapshot.doubled.validate = .ok view := ⟨_, rfl⟩
  obtain ⟨hclasses, hcanonical⟩ := toRecord_sound
  obtain ⟨hsound, hbetween⟩ := hcanonical Snapshot.doubled view hvalid ({} : LoaderScope).toScope
    .sameMethod (view.dependencyGraph.labeler .feature)
  obtain ⟨edge, hedge, hsource⟩ :=
    DependencyGraph.kept_doubled hvalid .sameMethod (view.dependencyGraph.labeler .feature)
  obtain ⟨text, htext, hsplit⟩ := hbetween edge.toRecord (List.mem_map_of_mem hedge)
  have hzero : edge.toRecord.source.toList = ['0'] := by
    show (toString edge.source).toList = ['0']
    rw [hsource]
    decide
  rw [hzero] at hsplit
  exact ⟨hclasses _, view, hvalid, hsound, edge.toRecord, List.mem_map_of_mem hedge, text, htext,
    hsplit⟩

end ProgramGraphs
