import ProgramGraphs.Proofs.Class.Reduce

/-!
# Which classes a class graph shows

A class is shown because some call mentions it, as the caller's class or as the
target's.  Its *origin* is the first node of the walk that did so, and the
vertex shows what was known of that node's class (`vertices_reduce`).

The scope is asked about targets alone.  So an origin out of scope is an entry
point (`scope_or_entryPoint`), and all vertices show classes in scope exactly when
those of the entry points among the origins do (`reduce_keeps_to_scope_iff`).
Nothing checks these: the class of a single entry point that was carved out of the
scope is shown like any other (`stub_out_of_scope`).
-/

namespace ProgramGraphs

namespace CallGraph

variable {N : Type}

/-- The nodes through which the classes of the class graph were first observed,
in this order. -/
def origins (graph : CallGraph N) (scope : Scope) : List N :=
  firstBy graph.className (nodesOf (graph.crossings scope))

/-- Each vertex shows the class of its origin. -/
theorem vertices_reduce (graph : CallGraph N) (scope : Scope) :
    (graph.reduce scope).vertices.toList =
      (graph.origins scope).map fun node => ClassVertex.ofClass (graph.declaringClass node) := by
  rw [(graph.tallies_reduce scope).lists.vertices_eq, mentioned_observed, firstBy_map]
  rfl

theorem caller_mem_entryPoints {graph : CallGraph N} {scope : Scope} {call : N × Nat × N}
    (hcall : call ∈ graph.crossings scope) : call.1 ∈ graph.entryPoints := by
  obtain ⟨caller, hcaller, hsites⟩ := List.mem_flatMap.mp (List.mem_of_mem_filter hcall)
  obtain ⟨site, -, hsite⟩ := List.mem_flatMap.mp hsites
  obtain ⟨target, -, rfl⟩ := List.mem_map.mp hsite
  exact hcaller

theorem scope_target {graph : CallGraph N} {scope : Scope} {call : N × Nat × N}
    (hcall : call ∈ graph.crossings scope) : scope (graph.declaringClass call.2.2) = true :=
  (of_decide_eq_true (List.mem_filter.mp hcall).2).1

/-- Only entry points bring in classes that are out of scope. -/
theorem scope_or_entryPoint {graph : CallGraph N} {scope : Scope} {node : N}
    (horigin : node ∈ graph.origins scope) :
    scope (graph.declaringClass node) = true ∨ node ∈ graph.entryPoints := by
  obtain ⟨call, hcall, hnode⟩ := List.mem_flatMap.mp (mem_of_mem_firstBy horigin)
  rcases List.mem_pair.mp hnode with rfl | rfl
  · exact Or.inr (caller_mem_entryPoints hcall)
  · exact Or.inl (scope_target hcall)

end CallGraph

namespace Snapshot

variable {snapshot : Snapshot} {view : View}

/-- The classes of the origins are classes of the snapshot. -/
theorem declaringClass_mem_classes (hvalid : snapshot.validate = .ok view) {scope : Scope}
    {node : Nat} (horigin : node ∈ view.callGraph.origins scope) :
    view.callGraph.declaringClass node ∈ snapshot.classes := by
  have hyields : view.callGraph.Yields node := by
    obtain ⟨call, hcall, hnode⟩ := List.mem_flatMap.mp (mem_of_mem_firstBy horigin)
    have hwalk := List.mem_map_of_mem (f := fun call => (call.1, call.2.2))
      (List.mem_of_mem_filter hcall)
    rw [CallGraph.map_walk] at hwalk
    have hends := CallGraph.yields_of_mem_calls hwalk
    rcases List.mem_pair.mp hnode with rfl | rfl
    · exact hends.1
    · exact hends.2
  obtain ⟨found, hfound⟩ := callGraph_shows hvalid hyields
  rw [hfound.declaringClass_eq]
  exact List.mem_of_getElem? found.class_eq

/-- **When a class graph keeps to its scope.**  Every vertex shows the class of its
origin, which is in scope or that of an entry point.  So every vertex shows a class
of the snapshot that is in scope exactly when those of the entry points do. -/
theorem reduce_keeps_to_scope_iff (hvalid : snapshot.validate = .ok view) (scope : Scope) :
    let graph := view.callGraph
    let InScope := fun node => scope (graph.declaringClass node) = true
    let ShowsInScope := fun vertex =>
      ∃ info ∈ snapshot.classes, ClassVertex.ofClass info = vertex ∧ scope info = true
    view.callGraph? = some graph ∧
      (graph.reduce scope).vertices.toList =
        (graph.origins scope).map (fun node => ClassVertex.ofClass (graph.declaringClass node)) ∧
      (∀ node ∈ graph.origins scope, InScope node ∨ node ∈ graph.entryPoints) ∧
      ((∀ vertex ∈ (graph.reduce scope).vertices.toList, ShowsInScope vertex) ↔
        ∀ node ∈ graph.origins scope, node ∈ graph.entryPoints →
          ShowsInScope (ClassVertex.ofClass (graph.declaringClass node))) := by
  intro graph InScope ShowsInScope
  have hvertices := graph.vertices_reduce scope
  have horigins : ∀ node ∈ graph.origins scope, InScope node ∨ node ∈ graph.entryPoints :=
    fun node => CallGraph.scope_or_entryPoint
  refine ⟨callGraph?_eq hvalid, hvertices, horigins, ?_⟩
  rw [hvertices, List.forall_mem_map]
  refine ⟨fun hshows node hnode _ => hshows node hnode, fun hentries node hnode => ?_⟩
  rcases horigins node hnode with hscope | hentry
  · exact ⟨_, declaringClass_mem_classes hvalid hnode, rfl, hscope⟩
  · exact hentries node hnode hentry

/-- An entry point in a generated class, which the scope leaves out, calls a class of
the application. -/
def stub : Snapshot :=
  { classes := [{ name := "Lcom/acme/generated/Stub", loader := "Application" },
      { name := "Lcom/acme/App", loader := "Application" }]
    methods := [⟨"dispatch", 0⟩, ⟨"serve", 1⟩]
    callGraph := { nodes := [⟨0, [{ targets := [1] }]⟩, ⟨1, []⟩], entryPoints := [0] } }

/-- Application classes without the generated ones. -/
def withoutGenerated : LoaderScope := { excludedPrefixes := ["com.acme.generated"] }

theorem origins_stub :
    ∀ scope ∈ [{}, withoutGenerated],
      (unchecked stub).callGraph.origins scope.toScope = [0, 1] := by
  decide +kernel

theorem declaringClasses_stub :
    [0, 1].map (unchecked stub).callGraph.declaringClass = stub.classes := by
  simp [unchecked, View.callGraph, nodeInfos, stub]

/-- Both classes are shown, whether generated classes are in scope or not. -/
theorem vertices_stub {scope : LoaderScope} (hscope : scope ∈ [{}, withoutGenerated]) :
    ((unchecked stub).callGraph.reduce scope.toScope).vertices.toList =
      stub.classes.map ClassVertex.ofClass := by
  rw [CallGraph.vertices_reduce, origins_stub scope hscope, ← declaringClasses_stub, List.map_map]
  rfl

/-- When generated classes are in scope as well, the class graph keeps to the scope. -/
theorem reduce_stub_keeps_to_scope_iff :
    let graph := (unchecked stub).callGraph
    let scope := ({} : LoaderScope).toScope
    stub.validate = .ok (unchecked stub) ∧
      (graph.reduce scope).vertices.toList = stub.classes.map ClassVertex.ofClass ∧
      ∀ vertex ∈ (graph.reduce scope).vertices.toList,
        ∃ info ∈ stub.classes, ClassVertex.ofClass info = vertex ∧ scope info = true := by
  intro graph scope
  have hvalid : stub.validate = .ok (unchecked stub) := rfl
  have hfirst : graph.declaringClass 0 =
      { name := "Lcom/acme/generated/Stub", loader := "Application" } :=
    (List.cons.inj declaringClasses_stub).1
  obtain ⟨-, -, -, hiff⟩ := reduce_keeps_to_scope_iff hvalid scope
  refine ⟨hvalid, vertices_stub List.mem_cons_self, hiff.mpr fun node _ hentry => ?_⟩
  obtain rfl : node = 0 := List.mem_singleton.mp hentry
  exact ⟨_, List.mem_cons_self, congrArg ClassVertex.ofClass hfirst.symm, by decide⟩

/-- A class that the scope leaves out is shown: no class of the snapshot that is
in scope gives the vertex of the caller. -/
theorem stub_out_of_scope :
    stub.validate = .ok (unchecked stub) ∧
      ¬ ∀ vertex ∈ ((unchecked stub).callGraph.reduce withoutGenerated.toScope).vertices.toList,
        ∃ info ∈ stub.classes, ClassVertex.ofClass info = vertex ∧
          withoutGenerated.toScope info = true := by
  refine ⟨rfl, fun hkeeps => ?_⟩
  rw [vertices_stub (List.mem_cons_of_mem _ List.mem_cons_self)] at hkeeps
  obtain ⟨info, hinfo, hvertex, hscope⟩ := hkeeps _ List.mem_cons_self
  rcases List.mem_pair.mp hinfo with rfl | rfl
  · exact absurd hscope (by decide)
  · exact absurd hvertex (by decide)

end Snapshot

end ProgramGraphs
