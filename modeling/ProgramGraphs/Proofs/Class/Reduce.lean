import ProgramGraphs.Proofs.Class.Tally
import ProgramGraphs.Proofs.Snapshot.Lookups

/-!
# Class graphs count the calls of a snapshot

The class graph of a call graph is the tally of the calls that cross from one
class into another one in scope: the *crossings*.  `Summarizes` says what that
means for its vertices and edges, and every call graph with fewer than `2 ^ 53`
crossings has such a class graph (`summarizes_reduce`).

In a snapshot whose references were checked, the methods and classes of all nodes
that the walk touches are there, so its call graph is one of these
(`reduce_of_validate`).
-/

namespace ProgramGraphs

namespace CallGraph

variable {N : Type}

/-- The calls of the entry points in the order of the walk: the caller, the
number of the call site, and the target. -/
def walk (graph : CallGraph N) : List (N × Nat × N) :=
  graph.entryPoints.flatMap fun caller =>
    (graph.callSites caller).zipIdx.flatMap fun (targets, site) =>
      targets.map fun target => (caller, site, target)

/-- The qualified name of the class that declares the method of a node. -/
def className (graph : CallGraph N) (node : N) : String :=
  (graph.declaringClass node).exportedName.qualified

/-- The classes of a call's caller and target. -/
def ends (graph : CallGraph N) (call : N × Nat × N) : String × String :=
  (graph.className call.1, graph.className call.2.2)

/-- The calls whose target is in scope and in another class. -/
def crossings (graph : CallGraph N) (scope : Scope) : List (N × Nat × N) :=
  graph.walk.filter fun call =>
    scope (graph.declaringClass call.2.2) ∧ graph.className call.1 ≠ graph.className call.2.2

/-- The nodes of some calls, callers before targets. -/
def nodesOf (calls : List (N × Nat × N)) : List N := calls.flatMap fun call => [call.1, call.2.2]

/-- A class graph counts the calls of a call graph that cross into a scope. -/
structure Summarizes (graph : CallGraph N) (scope : Scope) (classes : ClassGraph) : Prop where
  /-- The classes that occur, in the order of their first occurrence. -/
  names_eq : classes.vertices.toList.map (·.className) =
    ((nodesOf (graph.crossings scope)).map graph.className).eraseDups
  /-- A vertex shows what was known of the class when it was first observed. -/
  vertex_eq : ∀ vertex ∈ classes.vertices.toList, ∃ node,
    (nodesOf (graph.crossings scope)).find?
        (fun node => graph.className node = vertex.className) = some node ∧
      vertex = ClassVertex.ofClass (graph.declaringClass node)
  /-- There is an edge where there is a crossing. -/
  isSome_edge?_iff : ∀ source target, (classes.edge? source target).isSome ↔
    ∃ call ∈ graph.crossings scope, graph.ends call = (source, target)
  /-- An edge counts the crossings exactly, and shows the methods of the first one. -/
  edge_eq : ∀ source target edge, classes.edge? source target = some edge →
    let count := (graph.crossings scope).countP fun call => graph.ends call = (source, target)
    edge.weight = Float.ofNat count ∧ edge.weight.toUInt64.toNat = count ∧
      ∃ first, (graph.crossings scope).find?
          (fun call => graph.ends call = (source, target)) = some first ∧
        edge.sourceMethod = graph.method first.1 ∧ edge.targetMethod = graph.method first.2.2
  /-- The edges are listed in the order of their first crossings. -/
  ends_eq : classes.edges.map (fun edge => (edge.1.className, edge.2.1.className)) =
    ((graph.crossings scope).map graph.ends).eraseDups
  /-- A listed edge joins vertices of the graph and is the edge between their names. -/
  mem_edges : ∀ source target edge, (source, target, edge) ∈ classes.edges →
    source ∈ classes.vertices ∧ target ∈ classes.vertices ∧
      classes.edge? source.className target.className = some edge
  totalWeight_eq : classes.totalWeight = Float.ofNat (graph.crossings scope).length
  callSites_eq : classes.stats.callSites = (graph.crossings scope).length

/-- A call of the walk as the class graph sees it. -/
def observed (graph : CallGraph N) (call : N × Nat × N) : ObservedCall :=
  { source := .ofClass (graph.declaringClass call.1)
    target := .ofClass (graph.declaringClass call.2.2)
    sourceMethod := graph.method call.1
    targetMethod := graph.method call.2.2 }

theorem map_walk (graph : CallGraph N) :
    graph.walk.map (fun call => (call.1, call.2.2)) = graph.calls := by
  rw [calls, walk, List.map_flatMap]
  refine List.flatMap_congr fun caller _ => ?_
  have hsites := List.zipIdx_map_fst 0 (graph.callSites caller)
  rw [List.map_flatMap, List.map_flatten, ← List.flatMap_def]
  conv_rhs => rw [← hsites]
  rw [List.flatMap_map]
  refine List.flatMap_congr fun site _ => ?_
  rw [List.map_map]
  rfl

/-- The class graph is the tally of the crossings. -/
theorem tallies_reduce (graph : CallGraph N) (scope : Scope) :
    ClassGraph.Tallies (mentioned ((graph.crossings scope).map graph.observed))
      ((graph.crossings scope).map graph.observed) (graph.reduce scope) := by
  have htallies := ClassGraph.tallies_empty.foldl_observe
    ((graph.walk.filter fun call => scope (graph.declaringClass call.2.2)).map graph.observed)
  have hcrossings : ((graph.walk.filter fun call => scope (graph.declaringClass call.2.2)).map
      graph.observed).filter (fun call => call.Crosses) =
      (graph.crossings scope).map graph.observed := by
    rw [List.filter_map, List.filter_filter, crossings]
    refine congrArg (List.map graph.observed) (List.filter_congr fun call _ => ?_)
    rw [Bool.decide_and, Bool.and_comm, Bool.decide_eq_true]
    rfl
  have hreduce : ((graph.walk.filter fun call => scope (graph.declaringClass call.2.2)).map
      graph.observed).foldl ClassGraph.observe ClassGraph.empty = graph.reduce scope := by
    rw [reduce, applicationCalls, ← map_walk, List.filter_map, List.foldl_map, List.foldl_map]
    rfl
  rwa [List.nil_append, List.nil_append, hcrossings, hreduce] at htallies

theorem mentioned_observed (graph : CallGraph N) (calls : List (N × Nat × N)) :
    mentioned (calls.map graph.observed) =
      (nodesOf calls).map fun node => ClassVertex.ofClass (graph.declaringClass node) := by
  rw [mentioned, List.flatMap_map, nodesOf, List.map_flatMap]
  rfl

theorem countCalls_observed (graph : CallGraph N) (calls : List (N × Nat × N))
    (ends : String × String) :
    countCalls (calls.map graph.observed) ends =
      calls.countP fun call => graph.ends call = ends := by
  rw [countCalls, List.countP_map]
  rfl

/-- What the class graph has between two names is the tally of the crossings
between them. -/
theorem edge?_reduce (graph : CallGraph N) (scope : Scope) (source target : String) :
    (graph.reduce scope).edge? source target =
      ((graph.crossings scope).find? fun call => graph.ends call = (source, target)).map
        fun first =>
          ⟨graph.method first.1, graph.method first.2.2,
            ones ((graph.crossings scope).countP fun call =>
              graph.ends call = graph.ends first)⟩ := by
  rw [(graph.tallies_reduce scope).edge?_eq, List.find?_map, Option.map_map]
  refine Option.map_congr fun first _ => ?_
  rw [Function.comp_apply, tally, countCalls_observed]
  rfl

/-- **A class graph counts the crossings of its call graph.** -/
theorem summarizes_reduce (graph : CallGraph N) (scope : Scope)
    (hlt : (graph.crossings scope).length < 2 ^ 53) :
    graph.Summarizes scope (graph.reduce scope) := by
  have htallies := graph.tallies_reduce scope
  have hlength : ((graph.crossings scope).map graph.observed).length =
      (graph.crossings scope).length := List.length_map _
  have htotal : (graph.reduce scope).totalWeight = Float.ofNat (graph.crossings scope).length := by
    rw [htallies.totalWeight_eq (hlength ▸ hlt), hlength]
  refine ⟨?_, fun vertex hvertex => ?_, fun source target => ?_, fun source target edge hedge => ?_,
    ?_, fun _ _ _ => htallies.mem_edges, htotal, ?_⟩
  · rw [htallies.lists.vertices_eq, map_firstBy, mentioned_observed, List.map_map]
    rfl
  · rw [htallies.lists.vertices_eq, mem_firstBy, mentioned_observed, List.find?_map,
      Option.map_eq_some_iff] at hvertex
    obtain ⟨node, hnode, heq⟩ := hvertex
    exact ⟨node, hnode, heq.symm⟩
  · rw [edge?_reduce, Option.isSome_map, List.find?_isSome]
    exact exists_congr fun call => and_congr_right fun _ => decide_eq_true_iff
  · rw [edge?_reduce, Option.map_eq_some_iff] at hedge
    obtain ⟨first, hfirst, rfl⟩ := hedge
    have hends : graph.ends first = (source, target) := by
      have hfound := List.find?_some hfirst
      exact of_decide_eq_true hfound
    intro count
    have hcount : count < 2 ^ 53 := Nat.lt_of_le_of_lt List.countP_le_length hlt
    have hweight : ones ((graph.crossings scope).countP fun call =>
        graph.ends call = graph.ends first) = Float.ofNat count := by
      rw [hends]
      exact ones_eq_ofNat hcount
    exact ⟨hweight, hweight ▸ toUInt64_ofNat hcount, first, hfirst, rfl, rfl⟩
  · rw [htallies.map_edges, List.map_map]
    rfl
  · rw [ClassGraph.stats, htotal]
    exact toUInt64_ofNat hlt

end CallGraph

namespace Snapshot

variable {snapshot : Snapshot} {view : View}

/-- **Class graphs of checked snapshots.**  The call graph of a snapshot whose
references were checked has its methods and classes, and its class graph counts
the crossings. -/
theorem reduce_of_validate (hvalid : snapshot.validate = .ok view) (scope : Scope)
    (hlt : (view.callGraph.crossings scope).length < 2 ^ 53) :
    view.callGraph? = some view.callGraph ∧
      view.callGraph.Summarizes scope (view.callGraph.reduce scope) :=
  ⟨callGraph?_eq hvalid, view.callGraph.summarizes_reduce scope hlt⟩

/-- A class that calls another one from two sites, and is walked twice.  It also
calls itself, under another descriptor of the same name, and the library. -/
def pingPong : Snapshot :=
  { classes := [{ name := "Lp/A", loader := "Application" },
      { name := "Lp/A;", loader := "Application" }, { name := "Lp/B", loader := "Application" },
      { name := "Lq/C", loader := "Primordial" }]
    methods := [⟨"run", 0⟩, ⟨"help", 1⟩, ⟨"serve", 2⟩, ⟨"log", 3⟩]
    callGraph :=
      { nodes := [⟨0, [{ targets := [1, 2, 3] }, { targets := [2] }]⟩, ⟨1, []⟩, ⟨2, []⟩, ⟨3, []⟩]
        entryPoints := [0, 0] } }

theorem reduce_pingPong :
    let graph := (unchecked pingPong).callGraph
    let scope := ({} : LoaderScope).toScope
    pingPong.validate = .ok (unchecked pingPong) ∧
      graph.crossings scope = [(0, 0, 2), (0, 1, 2), (0, 0, 2), (0, 1, 2)] ∧
      graph.Summarizes scope (graph.reduce scope) := by
  intro graph scope
  have hvalid : pingPong.validate = .ok (unchecked pingPong) := rfl
  have hcrossings : graph.crossings scope = [(0, 0, 2), (0, 1, 2), (0, 0, 2), (0, 1, 2)] := by
    decide +kernel
  have hlt : (graph.crossings scope).length < 2 ^ 53 := by
    rw [hcrossings]
    decide
  exact ⟨hvalid, hcrossings, (reduce_of_validate hvalid scope hlt).2⟩

end Snapshot

end ProgramGraphs
