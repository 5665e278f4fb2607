import ProgramGraphs.Proofs.Canonical.Renaming
import ProgramGraphs.Proofs.Class.Reduce
import ProgramGraphs.Proofs.Snapshot.Edges
import ProgramGraphs.Record.Graphs
import ProgramGraphs.Snapshot.Read

/-!
# A checked snapshot can be used without further checks

A snapshot is refused for the reference that dangles first, and the report names
it; it is accepted when none dangles.  Once it is accepted, everything that its
graphs hand out is in range (`View.Complete`).

It remains that class graphs and canonical graphs are made from what is handed
out.  This is a frame property: two graphs that agree on what is handed out give
the same result, whatever they say elsewhere (`CallGraph.reduce_frame`,
`DependencyGraph.canonicalize_frame`).  So what a lookup out of range would give
does not matter, since there is none (`View.StaysInRange`).
-/

namespace ProgramGraphs

namespace CallGraph

variable {N : Type}

/-- Two call graphs that start from the same nodes and say the same of those that
are known. -/
structure AgreesOn (known : N → Prop) (first second : CallGraph N) : Prop where
  entryPoints_eq : first.entryPoints = second.entryPoints
  callSites_eq : ∀ node, known node → first.callSites node = second.callSites node
  method_eq : ∀ node, known node → first.method node = second.method node
  declaringClass_eq : ∀ node, known node → first.declaringClass node = second.declaringClass node

/-- A class graph is made from what its call graph hands out. -/
theorem reduce_frame {known : N → Prop} {first second : CallGraph N}
    (hagrees : AgreesOn known first second) (hknown : ∀ node, second.Yields node → known node)
    (scope : Scope) : first.reduce scope = second.reduce scope := by
  have hcalls : first.calls = second.calls := by
    rw [calls, calls, hagrees.entryPoints_eq]
    refine List.flatMap_congr fun caller hcaller => ?_
    rw [hagrees.callSites_eq caller (hknown caller (.entryPoint hcaller))]
  have happlication : first.applicationCalls scope = second.applicationCalls scope := by
    rw [applicationCalls, applicationCalls, hcalls]
    refine List.filter_congr fun call hcall => ?_
    rw [hagrees.declaringClass_eq _ (hknown _ (yields_of_mem_calls hcall).2)]
  rw [reduce, reduce, happlication]
  refine List.foldl_ext _ _ _ fun classes call hcall => ?_
  obtain ⟨hcaller, htarget⟩ := yields_of_mem_calls (List.mem_of_mem_filter hcall)
  rw [record, record, hagrees.declaringClass_eq _ (hknown _ hcaller),
    hagrees.declaringClass_eq _ (hknown _ htarget), hagrees.method_eq _ (hknown _ hcaller),
    hagrees.method_eq _ (hknown _ htarget)]

end CallGraph

attribute [ext] CanonicalGraph CanonicalStats

namespace DependencyGraph

variable {S : Type}

/-- Two dependency graphs that list the same statements and entries and say the
same of the statements that are known. -/
structure AgreesOn (known : S → Prop) (first second : DependencyGraph S) : Prop where
  statements_eq : first.statements = second.statements
  entries_eq : first.entries = second.entries
  successors_eq : ∀ statement, known statement →
    first.successors statement = second.successors statement
  info_eq : ∀ statement, known statement → first.info statement = second.info statement
  dependence_eq : ∀ source target, known source → known target →
    first.dependence source target = second.dependence source target
  context_eq : ∀ source target, known source → known target →
    first.context source target = second.context source target

section Agrees

variable {known : S → Prop} {first second : DependencyGraph S}

theorem AgreesOn.inScope_iff (hagrees : AgreesOn known first second)
    (hknown : ∀ statement ∈ second.statements, known statement) (scope : Scope) (statement : S) :
    first.InScope scope statement ↔ second.InScope scope statement := by
  rw [InScope, InScope, hagrees.statements_eq]
  refine and_congr_right fun hlisted => ?_
  rw [hagrees.info_eq statement (hknown statement hlisted)]

theorem AgreesOn.labeler_eq (hagrees : AgreesOn known first second) (strategy : LabelStrategy)
    {source target : S} (hsource : known source) (htarget : known target) :
    first.labeler strategy source target = second.labeler strategy source target := by
  have hdependence := hagrees.dependence_eq source target hsource htarget
  cases strategy with
  | dependence => exact hdependence
  | feature =>
      simp only [labeler, feature?]
      rw [hagrees.info_eq source hsource, hdependence]

variable [BEq S] [LawfulBEq S]

/-- The statements of one graph are found in the other under their own names. -/
theorem AgreesOn.renames (hagrees : AgreesOn known first second)
    (hknown : ∀ statement ∈ second.statements, known statement) (scope : Scope)
    (strategy : LabelStrategy) :
    Renames id second scope (second.labeler strategy) first scope (first.labeler strategy) := by
  have hreached : ∀ statement, second.Reachable scope statement → known statement :=
    fun statement hreached => hknown statement hreached.inScope.1
  have hscope : ∀ list : List S, (list.filter fun statement => first.InScope scope statement) =
      list.filter fun statement => second.InScope scope statement := fun list =>
    List.filter_congr fun statement _ =>
      decide_eq_decide.mpr (hagrees.inScope_iff hknown scope statement)
  constructor
  case injOn => exact Function.injective_id.injOn
  case entries_eq =>
    rw [List.map_id, scopedEntries, hagrees.entries_eq, hscope]
    rfl
  case successors_eq =>
    intro statement hstatement
    rw [List.map_id, scopedSuccessors, id, hagrees.successors_eq _ (hreached _ hstatement), hscope]
    rfl
  case method_eq =>
    intro statement hstatement
    rw [id, hagrees.info_eq _ (hreached _ hstatement)]
  case className_eq =>
    intro statement hstatement
    rw [id, hagrees.info_eq _ (hreached _ hstatement)]
  case position_eq =>
    intro statement hstatement
    rw [id, hagrees.info_eq _ (hreached _ hstatement)]
  case label_eq =>
    intro source target hsource htarget _
    exact hagrees.labeler_eq strategy (hreached _ hsource) (hreached _ htarget)
  case context_eq =>
    intro source target hsource htarget _
    exact hagrees.context_eq source target (hreached _ hsource) (hreached _ htarget)

variable [Hashable S]

/-- A canonical graph is made from what its dependency graph says of the statements
that it lists. -/
theorem canonicalize_frame (hagrees : AgreesOn known first second)
    (hknown : ∀ statement ∈ second.statements, known statement) (scope : Scope)
    (policy : BackEdgePolicy) (strategy : LabelStrategy) :
    first.canonicalize scope policy (first.labeler strategy) =
      second.canonicalize scope policy (second.labeler strategy) := by
  have hrenames := hagrees.renames hknown scope strategy
  obtain ⟨forest, hsearched⟩ := second.exists_searched scope
  have hvertices := hrenames.vertices_eq hsearched policy
  have hedges := hrenames.edges_eq hsearched policy
  have hback := hrenames.backEdges_eq hsearched policy
  have hlisted : first.inScope scope = second.inScope scope := by
    rw [inScope, inScope, hagrees.statements_eq]
    refine congrArg Std.HashSet.ofList (List.filter_congr fun statement hstatement => ?_)
    rw [hagrees.info_eq statement (hknown statement hstatement)]
  refine CanonicalGraph.ext hvertices hedges (CanonicalStats.ext ?_ ?_ ?_ ?_ hback)
  · exact congrArg List.length hagrees.statements_eq
  · exact congrArg Std.HashSet.size hlisted
  · rw [reached_eq, reached_eq, hvertices]
  · rw [keptEdges_eq, keptEdges_eq, hedges]

end Agrees

section FullyRanked

variable [BEq S] [Hashable S] [LawfulBEq S]

/-- The sources of edges have both ranks, and so has every target that has one. -/
def FullyRanked (graph : DependencyGraph S) (scope : Scope) : Prop :=
  let traversal := graph.traversal scope
  (∀ source ∈ traversal.finished, (traversal.ranks.interval? source).isSome) ∧
    ∀ target, (traversal.ranks.discover[target]?).isSome →
      (traversal.ranks.interval? target).isSome

theorem fullyRanked (graph : DependencyGraph S) (scope : Scope) : graph.FullyRanked scope := by
  obtain ⟨forest, hsearched⟩ := graph.exists_searched scope
  have hranked : ∀ statement ∈ forest,
      ((graph.traversal scope).ranks.interval? statement).isSome := by
    intro statement hmem
    rw [hsearched.traversal_eq, DepthFirst.interval?_eq hsearched.grows.distinct, if_pos hmem]
    rfl
  constructor
  · intro source hsource
    rw [hsearched.traversal_eq] at hsource
    exact hranked source (Forest.mem_postorder.mp hsource)
  · intro target htarget
    obtain ⟨rank, hrank⟩ := Option.isSome_iff_exists.mp htarget
    exact hranked target (hsearched.discover_eq_some_iff.mp hrank).1

end FullyRanked

end DependencyGraph

namespace Snapshot

/-- Everything that the graphs of a view hand out is in range, and they show what
the snapshot holds there. -/
structure View.Complete (view : View) : Prop where
  /-- The method and the class of a node are found too. -/
  node : ∀ place, view.callGraph.Yields place →
    ∃ found : view.snapshot.NodeAt place, found.ShownBy view.callGraph
  /-- The node of a statement is found too, and so is its row among the successors. -/
  statement : ∀ place, view.dependencyGraph.Yields place →
    place < view.tables.successors.size ∧
      ∃ found : view.snapshot.StatementAt place, view.dependencyGraph.info place = found.info
  /-- The tables have a row for the source of every edge. -/
  row : ∀ edge ∈ view.snapshot.edges, edge.ends.1 < view.tables.successors.size
  /-- What the tables know of two statements is an edge between them. -/
  edge : ∀ ends edge, view.tables.edges[ends]? = some edge →
    edge ∈ view.snapshot.edges ∧ edge.ends = ends

/-- Whatever is made from a view does without lookups out of range. -/
structure View.StaysInRange (view : View) : Prop where
  callGraph?_eq : view.callGraph? = some view.callGraph
  dependencyGraph?_eq : view.dependencyGraph? = some view.dependencyGraph
  /-- What a call graph says beyond the nodes of the snapshot does not show. -/
  reduce_eq : ∀ (scope : Scope) (other : CallGraph Nat),
    CallGraph.AgreesOn (· < view.snapshot.callGraph.nodes.length) other view.callGraph →
      other.reduce scope = view.callGraph.reduce scope
  /-- What a dependency graph says beyond the statements of the snapshot does not show. -/
  canonicalize_eq : ∀ (scope : Scope) (policy : BackEdgePolicy) (strategy : LabelStrategy)
    (other : DependencyGraph Nat),
    DependencyGraph.AgreesOn (· < view.snapshot.statements.length) other view.dependencyGraph →
      other.canonicalize scope policy (other.labeler strategy) =
        view.dependencyGraph.canonicalize scope policy (view.dependencyGraph.labeler strategy)
  ranked : ∀ scope : Scope, view.dependencyGraph.FullyRanked scope
  /-- Both vertices of every link are found, so renderers show all links. -/
  linked : ∀ scope : Scope, let classes := view.callGraph.reduce scope
    (∀ link ∈ classes.links, link.source < classes.vertices.size ∧
        link.target < classes.vertices.size) ∧
      classes.toRecord.edges.length = classes.links.size
  /-- The ends of edges are vertices, and it is decided whether there is a cycle. -/
  hasCycle?_isSome : ∀ (scope : Scope) (policy : BackEdgePolicy) (strategy : LabelStrategy),
    ((view.dependencyGraph.canonicalize scope policy
      (view.dependencyGraph.labeler strategy)).hasCycle?).isSome

variable {snapshot : Snapshot} {view : View}

theorem complete_of_validate (hvalid : snapshot.validate = .ok view) : view.Complete := by
  have hrecords := records_of_validate hvalid
  obtain rfl := snapshot_of_validate hvalid
  constructor
  case node => exact fun place hyields => callGraph_shows hvalid hyields
  case statement =>
    intro place hyields
    refine ⟨?_, dependencyGraph_shows hvalid hyields⟩
    rw [hrecords.size_eq]
    exact statement_lt hvalid hyields
  case row =>
    intro edge hedge
    rw [hrecords.size_eq]
    exact source_lt hvalid hedge
  case edge =>
    intro ends edge hfound
    rw [hrecords.edges_eq] at hfound
    exact ⟨List.mem_of_find?_eq_some hfound, by simpa using List.find?_some hfound⟩

theorem staysInRange_of_validate (hvalid : snapshot.validate = .ok view) : view.StaysInRange := by
  obtain rfl := snapshot_of_validate hvalid
  constructor
  case callGraph?_eq => exact callGraph?_eq hvalid
  case dependencyGraph?_eq => exact dependencyGraph?_eq hvalid
  case reduce_eq =>
    intro scope other hagrees
    exact CallGraph.reduce_frame hagrees (fun node hyields => node_lt hvalid hyields) scope
  case canonicalize_eq =>
    intro scope policy strategy other hagrees
    refine DependencyGraph.canonicalize_frame hagrees (fun statement hlisted => ?_) scope policy
      strategy
    exact statement_lt hvalid (.listed hlisted)
  case ranked => exact view.dependencyGraph.fullyRanked
  case linked =>
    intro scope classes
    have htallies := view.callGraph.tallies_reduce scope
    refine ⟨fun link hlink => htallies.link_lt hlink, ?_⟩
    rw [ClassGraph.toRecord, List.length_map]
    exact htallies.length_edges
  case hasCycle?_isSome =>
    intro scope policy strategy
    obtain ⟨forest, hsearched⟩ := view.dependencyGraph.exists_searched scope
    obtain ⟨answer, hanswer, -⟩ :=
      hsearched.hasCycle?_eq policy (view.dependencyGraph.labeler strategy)
    rw [hanswer]
    rfl

/-- The report of a snapshot that is refused. -/
theorem ofDocument_of_firstDangling {document : Json.Document} {reference : Reference}
    (hdocument : Json.Decode.document Snapshot.decoder document = .ok snapshot)
    (hdangling : snapshot.FirstDangling reference) :
    ofDocument document = .error (.snapshot (.dangling reference)) := by
  rw [ofDocument, hdocument]
  simp only [validate_eq_error_iff.mpr hdangling]

/-- **What a check is worth.**  A snapshot is accepted exactly if every place that it
refers to is there, and otherwise refused for the reference that dangles first.
Whatever is made from an accepted snapshot finds everything that it looks up. -/
theorem validate_complete (snapshot : Snapshot) :
    ((∃ view, snapshot.validate = .ok view) ↔ snapshot.WellReferenced) ∧
      (∀ reference, snapshot.validate = .error reference ↔ snapshot.FirstDangling reference) ∧
      (∀ document reference, Json.Decode.document Snapshot.decoder document = .ok snapshot →
        snapshot.FirstDangling reference →
          ∃ failure, ofDocument document = .error failure ∧
            failure.message = "Analysis error: " ++ (reference.relation.ownerName ++ " " ++
              toString reference.owner ++ " references " ++ reference.relation.targetName ++ " " ++
              toString reference.place.toNat ++ " but only " ++ toString reference.length ++
              " exist")) ∧
      ∀ view, snapshot.validate = .ok view → view.Complete ∧ view.StaysInRange := by
  refine ⟨exists_validate_iff, fun reference => validate_eq_error_iff,
    fun document reference hdocument hdangling => ?_, fun view hvalid => ?_⟩
  · exact ⟨_, ofDocument_of_firstDangling hdocument hdangling, rfl⟩
  · exact ⟨complete_of_validate hvalid, staysInRange_of_validate hvalid⟩

/-- A caller and its callee, with the entries of the dependency graph left to be
derived. -/
def relay : Snapshot :=
  { classes := [{ name := "Lp/A", loader := "Application" }]
    methods := [⟨"main", 0⟩, ⟨"help", 0⟩]
    callGraph := { nodes := [⟨0, [{ targets := [1] }]⟩, ⟨1, []⟩], entryPoints := [0] }
    dependencyGraph := some
      { statements := [{ node := 1, kind := .methodEntry }, { node := 0, kind := .methodEntry }]
        edges := [{ source := 1, target := 0 }] } }

/-- Both entry points dangle, and the first of them is reported. -/
def nodeless : Snapshot := { callGraph := { entryPoints := [3, 7] } }

/-- The same snapshot as a document. -/
def nodelessDocument : Json.Document := .ofText
  "\x7b\"classes\":[],\"methods\":[],\"call_graph\":\x7b\"nodes\":[],\"entry_points\":[3,7]\x7d\x7d"

theorem decode_nodelessDocument :
    Json.Decode.document Snapshot.decoder nodelessDocument = .ok nodeless := by
  have hread : (Json.Decode.document Snapshot.decoder nodelessDocument).toOption =
      some nodeless := by
    decide +kernel
  cases hresult : Json.Decode.document Snapshot.decoder nodelessDocument with
  | error error => simp [hresult, Except.toOption] at hread
  | ok snapshot =>
      rw [hresult] at hread
      exact congrArg Except.ok (Option.some.inj hread)

/-- Hash tables do not evaluate in a proof; the derived entry follows from their laws. -/
theorem entries_relay {view : View} (hvalid : relay.validate = .ok view) :
    view.dependencyGraph.entries = [1] := by
  obtain ⟨-, rfl⟩ := validate_eq_ok hvalid
  refine (entries_tables _ _).trans ?_
  simp [DependencySection.deriveEntries, DependencySection.methodEntries, relay,
    Std.HashMap.getElem?_insertIfNew, List.eraseDups_cons]

theorem yields_relay {view : View} (hvalid : relay.validate = .ok view) :
    view.callGraph.Yields 1 ∧ view.dependencyGraph.Yields 1 := by
  have hentry : 1 ∈ view.dependencyGraph.entries := by simp [entries_relay hvalid]
  refine ⟨?_, .entry hentry⟩
  obtain ⟨-, rfl⟩ := validate_eq_ok hvalid
  have hcaller : 0 ∈ relay.callGraph.entryPoints.map (·.toNat) := List.mem_cons_self
  exact .target (.entryPoint hcaller) List.mem_cons_self List.mem_cons_self

theorem validate_relay_complete :
    (∃ view, relay.validate = .ok view ∧ view.callGraph.Yields 1 ∧ view.dependencyGraph.Yields 1 ∧
        view.Complete ∧ view.StaysInRange) ∧
      nodeless.FirstDangling ⟨.entryPoint, 0, 3, 0⟩ ∧ ¬ nodeless.WellReferenced ∧
      ∃ failure, ofDocument nodelessDocument = .error failure ∧ failure.message =
        "Analysis error: call graph 0 references entry point 3 but only 0 exist" := by
  obtain ⟨view, hvalid⟩ : ∃ view, relay.validate = .ok view := ⟨_, rfl⟩
  obtain ⟨hcalled, hentered⟩ := yields_relay hvalid
  obtain ⟨-, -, -, hsafe⟩ := validate_complete relay
  obtain ⟨haccepted, hrefused, hreport, -⟩ := validate_complete nodeless
  have hdangling : nodeless.FirstDangling ⟨.entryPoint, 0, 3, 0⟩ := (hrefused _).mp rfl
  refine ⟨⟨view, hvalid, hcalled, hentered, hsafe view hvalid⟩, hdangling, ?_, ?_⟩
  · intro hwell
    obtain ⟨view, hvalid⟩ := haccepted.mpr hwell
    rw [(hrefused _).mpr hdangling] at hvalid
    contradiction
  · obtain ⟨failure, hfailure, hmessage⟩ := hreport _ _ decode_nodelessDocument hdangling
    exact ⟨failure, hfailure, hmessage.trans rfl⟩

end Snapshot

end ProgramGraphs
