import ProgramGraphs.Proofs.Snapshot.DerivedEntries

/-!
# Lookups in checked snapshots

A call graph hands out its entry points and, call by call, the targets of what
it handed out before.  A dependency graph hands out its statements, its entries,
and the statements that depend on them.  In a snapshot whose references were
checked all of these are places in its lists, and so are the method and the
class that such a place leads to (`NodeAt`, `StatementAt`).  So of everything
that the graphs of its view hand out they say what the snapshot says
(`callGraph_shows`, `dependencyGraph_shows`).

Derived entries are no references, and nothing checks them.  They are read off
the list of statements, whose places they are
(`DependencySection.mem_deriveEntries`).
-/

namespace ProgramGraphs

/-- The nodes that a call graph hands out. -/
inductive CallGraph.Yields {N : Type} (graph : CallGraph N) : N → Prop where
  | entryPoint {node : N} (hnode : node ∈ graph.entryPoints) : graph.Yields node
  | target {caller node : N} {targets : List N} (hcaller : graph.Yields caller)
      (hsite : targets ∈ graph.callSites caller) (hnode : node ∈ targets) : graph.Yields node

/-- The ends of a call are handed out. -/
theorem CallGraph.yields_of_mem_calls {N : Type} {graph : CallGraph N} {call : N × N}
    (hcall : call ∈ graph.calls) : graph.Yields call.1 ∧ graph.Yields call.2 := by
  obtain ⟨caller, hcaller, hcall⟩ := List.mem_flatMap.mp hcall
  obtain ⟨target, hflat, rfl⟩ := List.mem_map.mp hcall
  obtain ⟨targets, hsite, htarget⟩ := List.mem_flatten.mp hflat
  exact ⟨.entryPoint hcaller, .target (.entryPoint hcaller) hsite htarget⟩

/-- The statements that a dependency graph hands out. -/
inductive DependencyGraph.Yields {S : Type} (graph : DependencyGraph S) : S → Prop where
  | listed {statement : S} (hlisted : statement ∈ graph.statements) : graph.Yields statement
  | entry {statement : S} (hentry : statement ∈ graph.entries) : graph.Yields statement
  | successor {source target : S} (hsource : graph.Yields source)
      (htarget : target ∈ graph.successors source) : graph.Yields target

namespace Snapshot

/-- The node at a place with its method and the class that declares it. -/
structure NodeAt (snapshot : Snapshot) (place : Nat) where
  node : CallNode
  method : Method
  declaringClass : ClassInfo
  node_eq : snapshot.callGraph.nodes[place]? = some node
  method_eq : snapshot.methods[node.method.toNat]? = some method
  class_eq : snapshot.classes[method.declaringClass.toNat]? = some declaringClass

/-- The statement at a place with its node. -/
structure StatementAt (snapshot : Snapshot) (place : Nat) where
  statement : Statement
  node : snapshot.NodeAt statement.node.toNat
  statement_eq : snapshot.statements[place]? = some statement

namespace NodeAt

theorem nodeInfos_eq {snapshot : Snapshot} {place : Nat} (found : snapshot.NodeAt place) :
    snapshot.nodeInfos[place]? = some (some ⟨found.method.name, found.declaringClass⟩) := by
  simp [nodeInfos, found.node_eq, found.method_eq, found.class_eq]

/-- A call graph says of a node what the snapshot says. -/
structure ShownBy {snapshot : Snapshot} {place : Nat} (found : snapshot.NodeAt place)
    (graph : CallGraph Nat) : Prop where
  callSites_eq : graph.callSites place =
    found.node.callSites.map fun site => site.targets.map (·.toNat)
  method_eq : graph.method place = found.method.name
  declaringClass_eq : graph.declaringClass place = found.declaringClass

theorem shownBy {view : View} {place : Nat} (found : view.snapshot.NodeAt place) :
    found.ShownBy view.callGraph := by
  refine ⟨?_, ?_, ?_⟩
  · simp [View.callGraph, View.callSites, found.node_eq]
  · simp [View.callGraph, found.nodeInfos_eq]
  · simp [View.callGraph, found.nodeInfos_eq]

end NodeAt

namespace StatementAt

variable {view : View} {place : Nat}

/-- What is known of a statement that is there. -/
def info {snapshot : Snapshot} (found : snapshot.StatementAt place) : StatementInfo :=
  { kind := found.statement.kind
    method := found.node.method.name
    declaringClass := found.node.declaringClass
    position := .ofOption found.statement.line }

theorem statementInfos_eq (found : view.snapshot.StatementAt place) :
    view.statementInfos[place]? = some (some found.info) := by
  simp [View.statementInfos, found.statement_eq, View.statementInfo?, found.node.nodeInfos_eq,
    info]

theorem info_eq (found : view.snapshot.StatementAt place) :
    view.dependencyGraph.info place = found.info := by
  simp [View.dependencyGraph, found.statementInfos_eq]

end StatementAt

namespace WellReferenced

variable {snapshot : Snapshot} {place : Nat}

theorem exists_nodeAt (hwell : snapshot.WellReferenced)
    (hlt : place < snapshot.callGraph.nodes.length) : Nonempty (snapshot.NodeAt place) := by
  have hnode := List.getElem_mem hlt
  have hmethod := hwell.methodOfNode _ hnode
  have hclass := hwell.classOfMethod _ (List.getElem_mem hmethod)
  exact ⟨{
    node := snapshot.callGraph.nodes[place]
    method := snapshot.methods[snapshot.callGraph.nodes[place].method.toNat]
    declaringClass := snapshot.classes[
      snapshot.methods[snapshot.callGraph.nodes[place].method.toNat].declaringClass.toNat]
    node_eq := List.getElem?_eq_getElem hlt
    method_eq := List.getElem?_eq_getElem hmethod
    class_eq := List.getElem?_eq_getElem hclass }⟩

theorem exists_statementAt (hwell : snapshot.WellReferenced)
    (hlt : place < snapshot.statements.length) : Nonempty (snapshot.StatementAt place) := by
  obtain ⟨node⟩ := hwell.exists_nodeAt (hwell.nodeOfStatement _ (List.getElem_mem hlt))
  exact ⟨⟨snapshot.statements[place], node, List.getElem?_eq_getElem hlt⟩⟩

end WellReferenced

/-! ## What views hand out -/

variable {snapshot : Snapshot} {view : View} {place : Nat}

theorem snapshot_of_validate (hvalid : snapshot.validate = .ok view) :
    view.snapshot = snapshot := by
  obtain ⟨-, rfl⟩ := validate_eq_ok hvalid
  rfl

theorem wellReferenced_of_validate (hvalid : snapshot.validate = .ok view) :
    snapshot.WellReferenced :=
  exists_validate_iff.mp ⟨view, hvalid⟩

theorem node_lt (hvalid : snapshot.validate = .ok view) (hyields : view.callGraph.Yields place) :
    place < snapshot.callGraph.nodes.length := by
  have hwell := wellReferenced_of_validate hvalid
  obtain rfl := snapshot_of_validate hvalid
  induction hyields with
  | entryPoint hentry =>
      obtain ⟨node, hnode, rfl⟩ := List.mem_map.mp hentry
      exact hwell.entryPoint node hnode
  | target _ htargets htarget ih =>
      obtain ⟨found⟩ := hwell.exists_nodeAt ih
      rw [found.shownBy.callSites_eq] at htargets
      obtain ⟨site, hsite, rfl⟩ := List.mem_map.mp htargets
      obtain ⟨node, hnode, rfl⟩ := List.mem_map.mp htarget
      exact hwell.callTarget _ (List.mem_of_getElem? found.node_eq) site hsite node hnode

theorem entry_lt (hvalid : snapshot.validate = .ok view) (hentry : place ∈ view.tables.entries) :
    place < snapshot.statements.length := by
  have hwell := wellReferenced_of_validate hvalid
  obtain ⟨-, rfl⟩ := validate_eq_ok hvalid
  cases hgraph : snapshot.dependencyGraph with
  | none => simp [hgraph] at hentry
  | some graph =>
      simp only [hgraph, entries_tables] at hentry
      cases hgiven : graph.entries with
      | none =>
          rw [hgiven] at hentry
          obtain ⟨node, -, hfirst⟩ := DependencySection.mem_deriveEntries.mp hentry
          obtain ⟨statement, hplace, -⟩ := hfirst.entry
          simp only [statements, hgraph]
          exact (List.getElem?_eq_some_iff.mp hplace).1
      | some given =>
          rw [hgiven] at hentry
          obtain ⟨statement, hstatement, rfl⟩ := List.mem_map.mp hentry
          exact hwell.entry statement (by simpa [givenEntries, hgraph, hgiven] using hstatement)

theorem statement_lt (hvalid : snapshot.validate = .ok view)
    (hyields : view.dependencyGraph.Yields place) : place < snapshot.statements.length := by
  have hwell := wellReferenced_of_validate hvalid
  induction hyields with
  | listed hlisted =>
      obtain rfl := snapshot_of_validate hvalid
      simpa [View.dependencyGraph, View.statementInfos] using hlisted
  | entry hentry => exact entry_lt hvalid hentry
  | successor _ htarget _ =>
      rw [successors_of_validate hvalid, mem_firstTargets] at htarget
      obtain ⟨edge, hedge, hends⟩ := List.mem_map.mp htarget
      obtain ⟨-, rfl⟩ := Prod.mk.inj hends
      exact hwell.edgeTarget edge hedge

/-- The nodes that the call graph hands out are there, and it shows them. -/
theorem callGraph_shows (hvalid : snapshot.validate = .ok view)
    (hyields : view.callGraph.Yields place) :
    ∃ found : snapshot.NodeAt place, found.ShownBy view.callGraph := by
  obtain ⟨found⟩ := (wellReferenced_of_validate hvalid).exists_nodeAt (node_lt hvalid hyields)
  obtain rfl := snapshot_of_validate hvalid
  exact ⟨found, found.shownBy⟩

/-- The statements that the dependency graph hands out are there, and it shows
them. -/
theorem dependencyGraph_shows (hvalid : snapshot.validate = .ok view)
    (hyields : view.dependencyGraph.Yields place) :
    ∃ found : snapshot.StatementAt place, view.dependencyGraph.info place = found.info := by
  obtain ⟨found⟩ :=
    (wellReferenced_of_validate hvalid).exists_statementAt (statement_lt hvalid hyields)
  obtain rfl := snapshot_of_validate hvalid
  exact ⟨found, found.info_eq⟩

theorem yields_of_mem_touched (hmem : place ∈ view.touched) : view.callGraph.Yields place := by
  rcases List.mem_append.mp hmem with hentry | htarget
  · exact .entryPoint hentry
  · obtain ⟨call, hcall, rfl⟩ := List.mem_map.mp htarget
    exact (CallGraph.yields_of_mem_calls hcall).2

theorem callGraph?_eq (hvalid : snapshot.validate = .ok view) :
    view.callGraph? = some view.callGraph := by
  refine if_pos (List.all_eq_true.mpr fun place hplace => ?_)
  obtain ⟨found, -⟩ := callGraph_shows hvalid (yields_of_mem_touched hplace)
  obtain rfl := snapshot_of_validate hvalid
  rw [found.nodeInfos_eq]
  rfl

theorem dependencyGraph?_eq (hvalid : snapshot.validate = .ok view) :
    view.dependencyGraph? = some view.dependencyGraph := by
  refine if_pos (Array.all_eq_true.mpr fun place hplace => ?_)
  have hlt : place < view.snapshot.statements.length := by
    simpa [View.statementInfos] using hplace
  rw [snapshot_of_validate hvalid] at hlt
  obtain ⟨found⟩ := (wellReferenced_of_validate hvalid).exists_statementAt hlt
  obtain rfl := snapshot_of_validate hvalid
  have hinfo := found.statementInfos_eq
  rw [Array.getElem?_eq_getElem hplace, Option.some.injEq] at hinfo
  rw [hinfo]
  rfl

end Snapshot

end ProgramGraphs
