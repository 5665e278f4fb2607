import ProgramGraphs.Proofs.Snapshot.Slots

/-!
# Derived entries

A snapshot may leave open where the searches of its dependency graph start.  Each
entry point of the call graph then contributes its first method entry, if it has one.
The table of method entries leads to exactly these (`getElem?_methodEntries`).  As two
nodes have no method entry in common, an entry is derived twice only if its node is
listed twice, and the entries stand in the order of the first mention of their nodes
(`deriveEntries_eq`).
-/

namespace ProgramGraphs

namespace Snapshot

namespace DependencySection

/-- The method entry of a node that comes first among the statements, if there is one. -/
def entryPlace? (graph : DependencySection) (node : Nat) : Option Nat :=
  graph.statements.findIdx? fun statement =>
    statement.kind = .methodEntry ∧ statement.node.toNat = node

/-- A place is that of the first method entry of a node. -/
structure FirstEntry (graph : DependencySection) (node : Index) (place : Nat) : Prop where
  entry : ∃ statement, graph.statements[place]? = some statement ∧
    statement.kind = .methodEntry ∧ statement.node = node
  first : ∀ earlier < place, ∀ statement, graph.statements[earlier]? = some statement →
    statement.kind = .methodEntry → statement.node ≠ node

variable {graph : DependencySection}

/-- A table that knows a node already keeps what it knows. -/
theorem getElem?_insertIfNew (table : Std.HashMap Nat Nat) (key place node : Nat) :
    (table.insertIfNew key place)[node]? =
      table[node]?.or (if key = node then some place else none) := by
  rw [Std.HashMap.getElem?_insertIfNew]
  by_cases hkey : key = node
  · subst hkey
    by_cases hmem : key ∈ table
    · simp [hmem]
    · simp [hmem]
  · simp [hkey]

/-- **The table of method entries leads each node to its first one.** -/
theorem getElem?_methodEntries (graph : DependencySection) (node : Nat) :
    graph.methodEntries[node]? = graph.entryPlace? node := by
  unfold methodEntries entryPlace?
  induction graph.statements using List.reverseRecOn with
  | nil => simp
  | append_singleton statements statement ih =>
      rw [List.zipIdx_append, List.foldl_append, List.findIdx?_append, ← ih]
      simp only [List.zipIdx_singleton, List.foldl_cons, List.foldl_nil, Nat.zero_add]
      by_cases hkind : statement.kind = .methodEntry
      · rw [if_pos hkind, getElem?_insertIfNew]
        by_cases hnode : statement.node.toNat = node <;> simp [hkind, hnode]
      · simp [hkind]

theorem entryPlace?_eq_some_iff {node : Index} {place : Nat} :
    graph.entryPlace? node.toNat = some place ↔ graph.FirstEntry node place := by
  rw [entryPlace?, List.findIdx?_eq_some_iff_getElem]
  simp only [decide_eq_true_eq, UInt64.toNat_inj]
  constructor
  · rintro ⟨hlt, hfound, hbefore⟩
    refine ⟨⟨graph.statements[place], List.getElem?_eq_getElem hlt, hfound⟩, ?_⟩
    intro earlier hearlier statement hstatement hkind hnode
    obtain ⟨hlt', rfl⟩ := List.getElem?_eq_some_iff.mp hstatement
    exact hbefore earlier hearlier ⟨hkind, hnode⟩
  · rintro ⟨⟨statement, hstatement, hentry⟩, hfirst⟩
    obtain ⟨hlt, rfl⟩ := List.getElem?_eq_some_iff.mp hstatement
    refine ⟨hlt, hentry, ?_⟩
    intro earlier hearlier hsame
    exact hfirst earlier hearlier _ (List.getElem?_eq_getElem (by omega)) hsame.1 hsame.2

/-- A method entry belongs to one node. -/
theorem FirstEntry.node_unique {node other : Index} {place : Nat}
    (hfirst : graph.FirstEntry node place) (hother : graph.FirstEntry other place) :
    node = other := by
  obtain ⟨statement, hstatement, -, rfl⟩ := hfirst.entry
  obtain ⟨statement', hstatement', -, rfl⟩ := hother.entry
  obtain rfl := Option.some.inj (hstatement.symm.trans hstatement')
  rfl

/-- A node with a method entry has a first one. -/
theorem exists_firstEntry {node : Index} {statement : Statement}
    (hmem : statement ∈ graph.statements) (hkind : statement.kind = .methodEntry)
    (hnode : statement.node = node) : ∃ place, graph.FirstEntry node place := by
  have hsome : (graph.entryPlace? node.toNat).isSome := by
    rw [entryPlace?, List.findIdx?_isSome, List.any_eq_true]
    exact ⟨statement, hmem, decide_eq_true ⟨hkind, congrArg UInt64.toNat hnode⟩⟩
  obtain ⟨place, hplace⟩ := Option.isSome_iff_exists.mp hsome
  exact ⟨place, entryPlace?_eq_some_iff.mp hplace⟩

/-- The first method entries of the distinct nodes, in the order in which the nodes are
first listed. -/
theorem deriveEntries_eq (graph : DependencySection) (entryPoints : List Index) :
    graph.deriveEntries entryPoints =
      entryPoints.eraseDups.filterMap fun node => graph.entryPlace? node.toNat := by
  unfold deriveEntries
  simp only [getElem?_methodEntries]
  apply eraseDups_filterMap
  intro node other place hnode hother
  exact (entryPlace?_eq_some_iff.mp hnode).node_unique (entryPlace?_eq_some_iff.mp hother)

theorem mem_deriveEntries {entryPoints : List Index} {place : Nat} :
    place ∈ graph.deriveEntries entryPoints ↔
      ∃ node ∈ entryPoints, graph.FirstEntry node place := by
  rw [deriveEntries_eq, List.mem_filterMap]
  simp only [List.mem_eraseDups, entryPlace?_eq_some_iff]

theorem pairwise_deriveEntries (graph : DependencySection) (entryPoints : List Index) :
    (graph.deriveEntries entryPoints).Pairwise fun first second =>
      ∀ node later, graph.FirstEntry node first → graph.FirstEntry later second →
        entryPoints.idxOf node < entryPoints.idxOf later := by
  rw [deriveEntries_eq, List.pairwise_filterMap]
  refine (pairwise_idxOf_eraseDups entryPoints).imp ?_
  intro node later hlt first hfirst second hsecond node' later' hnode' hlater'
  rw [hnode'.node_unique (entryPlace?_eq_some_iff.mp hfirst),
    hlater'.node_unique (entryPlace?_eq_some_iff.mp hsecond)]
  exact hlt

end DependencySection

/-! ## Checked snapshots -/

variable {snapshot : Snapshot} {view : View} {graph : DependencySection}

theorem entries_of_validate (hgraph : snapshot.dependencyGraph = some graph)
    (hnone : graph.entries = none) (hvalid : snapshot.validate = .ok view) :
    view.tables.entries = graph.deriveEntries snapshot.callGraph.entryPoints := by
  obtain ⟨-, rfl⟩ := validate_eq_ok hvalid
  simp only [hgraph, entries_tables, hnone]

/-- The snapshot with other entry points. -/
def withEntryPoints (snapshot : Snapshot) (entryPoints : List Index) : Snapshot :=
  { snapshot with callGraph := { snapshot.callGraph with entryPoints } }

/-- Entry points may be listed with other repetitions. -/
theorem exists_validate_withEntryPoints (hgraph : snapshot.dependencyGraph = some graph)
    (hnone : graph.entries = none) (hvalid : snapshot.validate = .ok view) {other : List Index}
    (hsame : other.eraseDups = snapshot.callGraph.entryPoints.eraseDups) :
    ∃ repeated, (snapshot.withEntryPoints other).validate = .ok repeated ∧
      repeated.dependencyGraph = view.dependencyGraph := by
  have hwell : snapshot.WellReferenced := exists_validate_iff.mp ⟨view, hvalid⟩
  have hother : (snapshot.withEntryPoints other).WellReferenced := by
    refine { hwell with entryPoint := ?_ }
    intro node hnode
    have hmem : node ∈ snapshot.callGraph.entryPoints := by
      rw [← List.mem_eraseDups, ← hsame, List.mem_eraseDups]
      exact hnode
    exact hwell.entryPoint node hmem
  obtain ⟨repeated, hrepeated⟩ := exists_validate_iff.mpr hother
  have hentries : repeated.tables.entries = view.tables.entries := by
    have hgraph' : (snapshot.withEntryPoints other).dependencyGraph = some graph := hgraph
    calc repeated.tables.entries
      _ = graph.deriveEntries other := entries_of_validate hgraph' hnone hrepeated
      _ = graph.deriveEntries snapshot.callGraph.entryPoints := by
          rw [DependencySection.deriveEntries_eq, DependencySection.deriveEntries_eq, hsame]
      _ = view.tables.entries := (entries_of_validate hgraph hnone hvalid).symm
  exact ⟨repeated, hrepeated,
    dependencyGraph_congr hvalid hrepeated rfl rfl (fun _ => rfl) (fun _ => rfl) hentries⟩

/-- **Derived entries are the first method entries of the entry points**, each once, in
the order in which their nodes are first listed.  A node without method entries
contributes nothing, and listing a node again changes nothing. -/
theorem validate_derives_entries (hgraph : snapshot.dependencyGraph = some graph)
    (hnone : graph.entries = none) (hvalid : snapshot.validate = .ok view) :
    let entries := view.dependencyGraph.entries
    let listed := snapshot.callGraph.entryPoints
    entries.Nodup ∧
      (∀ place, place ∈ entries ↔ ∃ node ∈ listed, graph.FirstEntry node place) ∧
      (∀ node ∈ listed, ∀ statement ∈ graph.statements, statement.kind = .methodEntry →
        statement.node = node → ∃ place ∈ entries, graph.FirstEntry node place) ∧
      (entries.Pairwise fun first second => ∀ node later, graph.FirstEntry node first →
        graph.FirstEntry later second → listed.idxOf node < listed.idxOf later) ∧
      ∀ other : List Index, other.eraseDups = listed.eraseDups →
        ∃ repeated, (snapshot.withEntryPoints other).validate = .ok repeated ∧
          repeated.dependencyGraph = view.dependencyGraph := by
  intro entries listed
  have hentries : entries = graph.deriveEntries listed := entries_of_validate hgraph hnone hvalid
  have hmem : ∀ place, place ∈ entries ↔ ∃ node ∈ listed, graph.FirstEntry node place := by
    intro place
    rw [hentries]
    exact DependencySection.mem_deriveEntries
  refine ⟨?_, hmem, ?_, ?_, ?_⟩
  · rw [hentries]
    exact nodup_eraseDups _
  · intro node hnode statement hstatement hkind hown
    obtain ⟨place, hplace⟩ := DependencySection.exists_firstEntry hstatement hkind hown
    exact ⟨place, (hmem place).mpr ⟨node, hnode, hplace⟩, hplace⟩
  · rw [hentries]
    exact DependencySection.pairwise_deriveEntries graph listed
  · intro other hsame
    exact exists_validate_withEntryPoints hgraph hnone hvalid hsame

/-- The node that is listed first has two method entries, the next one none, and the last
one the earliest of all. -/
def crossed : DependencySection :=
  { statements := [{ node := 2, kind := .phi }, { node := 0, kind := .methodEntry },
      { node := 2, kind := .methodEntry }, { node := 2, kind := .methodEntry },
      { node := 1, kind := .methodExit }] }

/-- The entry points of the call graph come in another order than the statements, and one
of them comes twice. -/
def crossedSnapshot : Snapshot :=
  { classes := [{ name := "Lp/A" }]
    methods := [⟨"main", 0⟩]
    callGraph := { nodes := [⟨0, []⟩, ⟨0, []⟩, ⟨0, []⟩], entryPoints := [2, 1, 2, 0] }
    dependencyGraph := some crossed }

theorem crossed_derives_entries :
    ∃ view, crossedSnapshot.validate = .ok view ∧ 2 ∈ view.dependencyGraph.entries ∧
      1 ∈ view.dependencyGraph.entries ∧ 3 ∉ view.dependencyGraph.entries ∧
      ∃ repeated, (crossedSnapshot.withEntryPoints [2, 1, 0]).validate = .ok repeated ∧
        repeated.dependencyGraph = view.dependencyGraph := by
  obtain ⟨view, hvalid⟩ : ∃ view, crossedSnapshot.validate = .ok view := ⟨_, rfl⟩
  have hgraph : crossedSnapshot.dependencyGraph = some crossed := rfl
  obtain ⟨-, hmem, -, -, hrepeated⟩ := validate_derives_entries hgraph rfl hvalid
  have hsecond : crossed.FirstEntry 2 2 := DependencySection.entryPlace?_eq_some_iff.mp (by decide)
  have hlast : crossed.FirstEntry 0 1 := DependencySection.entryPlace?_eq_some_iff.mp (by decide)
  refine ⟨view, hvalid, (hmem 2).mpr ⟨2, by decide, hsecond⟩, (hmem 1).mpr ⟨0, by decide, hlast⟩,
    ?_, hrepeated [2, 1, 0] (by decide)⟩
  intro hthird
  obtain ⟨node, -, hfirst⟩ := (hmem 3).mp hthird
  obtain ⟨statement, hstatement, -, rfl⟩ := hfirst.entry
  obtain rfl : { node := 2, kind := .methodEntry } = statement := Option.some.inj hstatement
  exact hfirst.first 2 (by decide) _ rfl rfl rfl

end Snapshot

end ProgramGraphs
