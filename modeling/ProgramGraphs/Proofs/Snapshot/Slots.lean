import Mathlib.Data.List.Lex
import Mathlib.Data.List.Nodup
import ProgramGraphs.Proofs.Snapshot.Tables

/-!
# Where the references of a snapshot stand

A *slot* is a place in a snapshot that may hold a reference, and `reference?`
says which reference it holds.  Slots are ordered by their positions, and this
is the order in which a snapshot is checked: `scan` lists the references with
their slots, and the slots of the list rise (`pairwise_scan`).

So a snapshot is refused for the dangling reference that stands first
(`validate_eq_error_iff`), and it is accepted when no reference dangles, which
is to say when every place that it refers to is there (`exists_validate_iff`).
-/

namespace ProgramGraphs

/-- In a list that is sorted by a key, a search finds the matching element with the
least key. -/
theorem find?_eq_some_iff_of_pairwise {A K : Type} [Preorder K] {key : A → K} {p : A → Bool}
    {list : List A} (hsorted : list.Pairwise fun a b => key a < key b) {a : A} :
    list.find? p = some a ↔ a ∈ list ∧ p a = true ∧ ∀ b ∈ list, key b < key a → p b = false := by
  induction list with
  | nil => simp
  | cons b list ih =>
      obtain ⟨hfirst, hsorted⟩ := List.pairwise_cons.mp hsorted
      rw [List.find?_cons]
      cases hp : p b with
      | true =>
          constructor
          · intro hfound
            obtain rfl := Option.some.inj hfound
            refine ⟨List.mem_cons_self, hp, fun c hc hlt => ?_⟩
            rcases List.mem_cons.mp hc with rfl | hc
            · exact absurd hlt (lt_irrefl _)
            · exact absurd hlt (lt_asymm (hfirst c hc))
          · rintro ⟨hmem, -, hearlier⟩
            rcases List.mem_cons.mp hmem with rfl | hmem
            · rfl
            · have hfalse := hearlier b List.mem_cons_self (hfirst a hmem)
              exact absurd hp (by simp [hfalse])
      | false =>
          rw [ih hsorted]
          constructor
          · rintro ⟨hmem, ha, hearlier⟩
            refine ⟨List.mem_cons_of_mem _ hmem, ha, fun c hc hlt => ?_⟩
            rcases List.mem_cons.mp hc with rfl | hc
            · exact hp
            · exact hearlier c hc hlt
          · rintro ⟨hmem, ha, hearlier⟩
            rcases List.mem_cons.mp hmem with rfl | hmem
            · exact absurd ha (by simp [hp])
            · exact ⟨hmem, ha, fun c hc => hearlier c (List.mem_cons_of_mem _ hc)⟩

theorem pairwise_zipIdx_snd {A : Type} (list : List A) :
    list.zipIdx.Pairwise fun a b => a.2 < b.2 := by
  rw [← List.pairwise_map, List.zipIdx_map_snd]
  exact List.pairwise_lt_range' ..

namespace Snapshot

/-- A place in a snapshot that may hold a reference.  Elements of lists are given
by their places. -/
inductive Slot where
  | classOfMethod (method : Nat)
  | methodOfNode (node : Nat)
  | callTarget (node site place : Nat)
  | entryPoint (place : Nat)
  | nodeOfStatement (statement : Nat)
  | edgeSource (edge : Nat)
  | edgeTarget (edge : Nat)
  | entry (place : Nat)

/-- The entries that a snapshot gives; none where they are to be derived. -/
def givenEntries (snapshot : Snapshot) : List Index :=
  match snapshot.dependencyGraph with
  | some graph => graph.entries.getD []
  | none => []

namespace Slot

/-- The reference at a slot, where the snapshot has such a slot. -/
def reference? (snapshot : Snapshot) : Slot → Option Reference
  | classOfMethod i => snapshot.methods[i]?.map fun method =>
      ⟨.classOfMethod, i, method.declaringClass, snapshot.classes.length⟩
  | methodOfNode i => snapshot.callGraph.nodes[i]?.map fun node =>
      ⟨.methodOfNode, i, node.method, snapshot.methods.length⟩
  | callTarget i j k => do
      let node ← snapshot.callGraph.nodes[i]?
      let site ← node.callSites[j]?
      let target ← site.targets[k]?
      return ⟨.callTarget, i, target, snapshot.callGraph.nodes.length⟩
  | entryPoint k => snapshot.callGraph.entryPoints[k]?.map fun node =>
      ⟨.entryPoint, 0, node, snapshot.callGraph.nodes.length⟩
  | nodeOfStatement i => snapshot.statements[i]?.map fun statement =>
      ⟨.nodeOfStatement, i, statement.node, snapshot.callGraph.nodes.length⟩
  | edgeSource i => snapshot.edges[i]?.map fun edge =>
      ⟨.edgeSource, i, edge.source, snapshot.statements.length⟩
  | edgeTarget i => snapshot.edges[i]?.map fun edge =>
      ⟨.edgeTarget, i, edge.target, snapshot.statements.length⟩
  | entry k => snapshot.givenEntries[k]?.map fun statement =>
      ⟨.entry, 0, statement, snapshot.statements.length⟩

/-- Positions are compared lexicographically: first the part of the snapshot,
then the element, and then what is inside it. -/
def position : Slot → List Nat
  | classOfMethod i => [0, i]
  | methodOfNode i => [1, i]
  | callTarget i j k => [1, i, j, k]
  | entryPoint k => [2, k]
  | nodeOfStatement i => [3, i]
  | edgeSource i => [4, i, 0]
  | edgeTarget i => [4, i, 1]
  | entry k => [5, k]

end Slot

/-- A dangling reference such that no reference before it dangles. -/
def FirstDangling (snapshot : Snapshot) (reference : Reference) : Prop :=
  ∃ slot : Slot, slot.reference? snapshot = some reference ∧ reference.Dangling ∧
    ∀ (earlier : Slot) (other : Reference), earlier.position < slot.position →
      earlier.reference? snapshot = some other → ¬ other.Dangling

/-- Every place that the snapshot refers to is there. -/
structure WellReferenced (snapshot : Snapshot) : Prop where
  classOfMethod : ∀ method ∈ snapshot.methods,
    method.declaringClass.toNat < snapshot.classes.length
  methodOfNode : ∀ node ∈ snapshot.callGraph.nodes, node.method.toNat < snapshot.methods.length
  callTarget : ∀ node ∈ snapshot.callGraph.nodes, ∀ site ∈ node.callSites,
    ∀ target ∈ site.targets, target.toNat < snapshot.callGraph.nodes.length
  entryPoint : ∀ node ∈ snapshot.callGraph.entryPoints,
    node.toNat < snapshot.callGraph.nodes.length
  nodeOfStatement : ∀ statement ∈ snapshot.statements,
    statement.node.toNat < snapshot.callGraph.nodes.length
  edgeSource : ∀ edge ∈ snapshot.edges, edge.source.toNat < snapshot.statements.length
  edgeTarget : ∀ edge ∈ snapshot.edges, edge.target.toNat < snapshot.statements.length
  entry : ∀ statement ∈ snapshot.givenEntries, statement.toNat < snapshot.statements.length

/-! ## The scan -/

section Listed

variable {A : Type} (slot : Nat → Slot) (reference : Nat → A → Reference) (list : List A)

/-- The references of the elements of a list, with their slots. -/
def listed : List (Slot × Reference) :=
  list.zipIdx.map fun entry => (slot entry.2, reference entry.2 entry.1)

variable {slot reference list}

@[simp] theorem listed_nil : listed slot reference [] = [] := rfl

theorem mem_listed {entry : Slot × Reference} :
    entry ∈ listed slot reference list ↔
      ∃ i a, list[i]? = some a ∧ entry = (slot i, reference i a) := by
  rw [listed, List.mem_map]
  constructor
  · rintro ⟨⟨a, i⟩, hplace, rfl⟩
    exact ⟨i, a, List.mk_mem_zipIdx_iff_getElem?.mp hplace, rfl⟩
  · rintro ⟨i, a, hplace, rfl⟩
    exact ⟨(a, i), List.mk_mem_zipIdx_iff_getElem?.mpr hplace, rfl⟩

theorem pairwise_listed (start : List Nat) (hstart : ∀ i, (slot i).position = start ++ [i]) :
    (listed slot reference list).Pairwise fun first second =>
      first.1.position < second.1.position := by
  rw [listed, List.pairwise_map]
  refine (pairwise_zipIdx_snd list).imp fun hlt => ?_
  rw [hstart, hstart]
  exact List.append_left_lt (List.cons_lt_cons_iff.mpr (Or.inl hlt))

theorem map_listed (f : A → Reference) :
    (listed slot (fun _ => f) list).map Prod.snd = list.map f := by
  have hplaces := List.zipIdx_map_fst 0 list
  conv_rhs => rw [← hplaces]
  rw [listed, List.map_map, List.map_map]
  rfl

end Listed

/-- The references of one node with their slots: to its method, and then to the
targets of its calls. -/
def scanNode (snapshot : Snapshot) (node : CallNode) (place : Nat) : List (Slot × Reference) :=
  (.methodOfNode place, ⟨.methodOfNode, place, node.method, snapshot.methods.length⟩) ::
    node.callSites.zipIdx.flatMap fun site =>
      listed (.callTarget place site.2)
        (fun _ target => ⟨.callTarget, place, target, snapshot.callGraph.nodes.length⟩)
        site.1.targets

/-- The references of one edge with their slots. -/
def scanEdge (snapshot : Snapshot) (edge : Edge) (place : Nat) : List (Slot × Reference) :=
  [(.edgeSource place, ⟨.edgeSource, place, edge.source, snapshot.statements.length⟩),
    (.edgeTarget place, ⟨.edgeTarget, place, edge.target, snapshot.statements.length⟩)]

/-- The references with their slots, part by part. -/
def parts (snapshot : Snapshot) : List (List (Slot × Reference)) :=
  [listed .classOfMethod
      (fun i method => ⟨.classOfMethod, i, method.declaringClass, snapshot.classes.length⟩)
      snapshot.methods,
    snapshot.callGraph.nodes.zipIdx.flatMap fun node => snapshot.scanNode node.1 node.2,
    listed .entryPoint (fun _ node => ⟨.entryPoint, 0, node, snapshot.callGraph.nodes.length⟩)
      snapshot.callGraph.entryPoints,
    listed .nodeOfStatement
      (fun i statement => ⟨.nodeOfStatement, i, statement.node, snapshot.callGraph.nodes.length⟩)
      snapshot.statements,
    snapshot.edges.zipIdx.flatMap fun edge => snapshot.scanEdge edge.1 edge.2,
    listed .entry (fun _ statement => ⟨.entry, 0, statement, snapshot.statements.length⟩)
      snapshot.givenEntries]

/-- All references with their slots. -/
def scan (snapshot : Snapshot) : List (Slot × Reference) := snapshot.parts.flatten

theorem mem_scan {snapshot : Snapshot} {slot : Slot} {reference : Reference} :
    (slot, reference) ∈ snapshot.scan ↔ slot.reference? snapshot = some reference := by
  cases slot <;>
    simp [scan, parts, mem_listed, scanNode, scanEdge, Slot.reference?,
      List.mk_mem_zipIdx_iff_getElem?, Option.bind_eq_some_iff, eq_comm (a := reference)]

theorem map_scanNode (snapshot : Snapshot) (node : CallNode) (place : Nat) :
    (snapshot.scanNode node place).map Prod.snd =
      ⟨.methodOfNode, place, node.method, snapshot.methods.length⟩ ::
        (node.callSites.flatMap (·.targets)).map fun target =>
          ⟨.callTarget, place, target, snapshot.callGraph.nodes.length⟩ := by
  have hsites := List.zipIdx_map_fst 0 node.callSites
  rw [scanNode, List.map_cons, List.map_flatMap, List.map_flatMap]
  conv_rhs => rw [← hsites, List.flatMap_map]
  refine congrArg (_ :: ·) (List.flatMap_congr fun site _ => ?_)
  exact map_listed _

/-- Without the slots, the scan is the list of references that is checked. -/
theorem map_scan (snapshot : Snapshot) : snapshot.scan.map Prod.snd = snapshot.references := by
  have hmethods : (listed .classOfMethod (fun i (method : Method) =>
      (⟨.classOfMethod, i, method.declaringClass, snapshot.classes.length⟩ : Reference))
      snapshot.methods).map Prod.snd = snapshot.methodReferences := List.map_map
  have hnodes : (snapshot.callGraph.nodes.zipIdx.flatMap fun node =>
      snapshot.scanNode node.1 node.2).map Prod.snd = snapshot.nodeReferences := by
    rw [List.map_flatMap]
    exact List.flatMap_congr fun node _ => map_scanNode snapshot node.1 node.2
  rw [scan, List.map_flatten, parts]
  cases hgraph : snapshot.dependencyGraph with
  | none =>
      simp [references, statements, edges, givenEntries, hgraph, hmethods, hnodes, map_listed,
        entryPointReferences]
  | some graph =>
      have hstatements : (listed .nodeOfStatement (fun i (statement : Statement) =>
          (⟨.nodeOfStatement, i, statement.node, snapshot.callGraph.nodes.length⟩ : Reference))
          graph.statements).map Prod.snd = graph.statements.zipIdx.map fun entry =>
            ⟨.nodeOfStatement, entry.2, entry.1.node, snapshot.callGraph.nodes.length⟩ :=
        List.map_map
      have hedges : (graph.edges.zipIdx.flatMap fun edge =>
          snapshot.scanEdge edge.1 edge.2).map Prod.snd = graph.edges.zipIdx.flatMap fun edge =>
            [⟨.edgeSource, edge.2, edge.1.source, graph.statements.length⟩,
              ⟨.edgeTarget, edge.2, edge.1.target, graph.statements.length⟩] := by
        simp [List.map_flatMap, scanEdge, statements, hgraph]
      simp [references, statements, edges, givenEntries, hgraph, hmethods, hnodes, map_listed,
        entryPointReferences, DependencySection.references, hstatements, hedges]

/-! ## The order of the slots -/

/-- Lists with rising positions that start with the places of the lists themselves rise
together. -/
theorem pairwise_flatMap_zipIdx {A : Type} {list : List A} {f : A → Nat → List (Slot × Reference)}
    (start : List Nat)
    (hstart : ∀ i a, list[i]? = some a → ∀ entry ∈ f a i, ∃ rest,
      entry.1.position = start ++ i :: rest)
    (hrises : ∀ i a, list[i]? = some a →
      (f a i).Pairwise fun first second => first.1.position < second.1.position) :
    (list.zipIdx.flatMap fun element => f element.1 element.2).Pairwise fun first second =>
      first.1.position < second.1.position := by
  rw [List.pairwise_flatMap]
  constructor
  · rintro ⟨a, i⟩ hmem
    exact hrises i a (List.mk_mem_zipIdx_iff_getElem?.mp hmem)
  · refine (pairwise_zipIdx_snd list).imp_of_mem ?_
    rintro ⟨a, i⟩ ⟨b, j⟩ ha hb hlt first hfirst second hsecond
    obtain ⟨_, hfirst⟩ := hstart i a (List.mk_mem_zipIdx_iff_getElem?.mp ha) first hfirst
    obtain ⟨_, hsecond⟩ := hstart j b (List.mk_mem_zipIdx_iff_getElem?.mp hb) second hsecond
    rw [hfirst, hsecond]
    exact List.append_left_lt (List.cons_lt_cons_iff.mpr (Or.inl hlt))

theorem position_scanNode {snapshot : Snapshot} {node : CallNode} {place : Nat}
    {entry : Slot × Reference} (hmem : entry ∈ snapshot.scanNode node place) :
    ∃ rest, entry.1.position = [1] ++ place :: rest := by
  rcases List.mem_cons.mp hmem with rfl | hmem
  · exact ⟨[], rfl⟩
  · obtain ⟨⟨site, j⟩, -, htarget⟩ := List.mem_flatMap.mp hmem
    obtain ⟨k, target, -, rfl⟩ := mem_listed.mp htarget
    exact ⟨[j, k], rfl⟩

theorem position_scanEdge {snapshot : Snapshot} {edge : Edge} {place : Nat}
    {entry : Slot × Reference} (hmem : entry ∈ snapshot.scanEdge edge place) :
    ∃ rest, entry.1.position = [4] ++ place :: rest := by
  rcases List.mem_pair.mp hmem with rfl | rfl
  · exact ⟨[0], rfl⟩
  · exact ⟨[1], rfl⟩

theorem pairwise_scanNode (snapshot : Snapshot) (node : CallNode) (place : Nat) :
    (snapshot.scanNode node place).Pairwise fun first second =>
      first.1.position < second.1.position := by
  rw [scanNode, List.pairwise_cons]
  constructor
  -- the method of a node comes before the targets of its calls
  · intro entry hentry
    obtain ⟨⟨site, j⟩, -, htarget⟩ := List.mem_flatMap.mp hentry
    obtain ⟨k, target, -, rfl⟩ := mem_listed.mp htarget
    simp [Slot.position]
  · refine pairwise_flatMap_zipIdx (f := fun (site : CallSite) j =>
      listed (.callTarget place j)
        (fun _ target => ⟨.callTarget, place, target, snapshot.callGraph.nodes.length⟩)
        site.targets) [1, place] ?_ ?_
    · intro j site hsite entry hentry
      obtain ⟨k, target, -, rfl⟩ := mem_listed.mp hentry
      exact ⟨[k], rfl⟩
    · intro j site hsite
      exact pairwise_listed [1, place, j] fun _ => rfl

theorem pairwise_scanEdge (snapshot : Snapshot) (edge : Edge) (place : Nat) :
    (snapshot.scanEdge edge place).Pairwise fun first second =>
      first.1.position < second.1.position := by
  simp [scanEdge, Slot.position, List.cons_lt_cons_iff]

theorem position_parts {snapshot : Snapshot} {k : Nat} {part : List (Slot × Reference)}
    (hpart : snapshot.parts[k]? = some part) {entry : Slot × Reference} (hmem : entry ∈ part) :
    ∃ rest, entry.1.position = k :: rest := by
  obtain ⟨hlt, rfl⟩ := List.getElem?_eq_some_iff.mp hpart
  match k with
  | 0 =>
    obtain ⟨method, -, rfl⟩ := List.mem_map.mp hmem
    exact ⟨_, rfl⟩
  | 1 =>
    obtain ⟨node, -, hnode⟩ := List.mem_flatMap.mp hmem
    obtain ⟨rest, hrest⟩ := position_scanNode hnode
    exact ⟨_, hrest⟩
  | 2 =>
    obtain ⟨node, -, rfl⟩ := List.mem_map.mp hmem
    exact ⟨_, rfl⟩
  | 3 =>
    obtain ⟨statement, -, rfl⟩ := List.mem_map.mp hmem
    exact ⟨_, rfl⟩
  | 4 =>
    obtain ⟨edge, -, hedge⟩ := List.mem_flatMap.mp hmem
    obtain ⟨rest, hrest⟩ := position_scanEdge hedge
    exact ⟨_, hrest⟩
  | 5 =>
    obtain ⟨statement, -, rfl⟩ := List.mem_map.mp hmem
    exact ⟨_, rfl⟩
  | k + 6 => exact absurd hlt (by simp [parts])

theorem pairwise_parts {snapshot : Snapshot} {part : List (Slot × Reference)}
    (hpart : part ∈ snapshot.parts) :
    part.Pairwise fun first second => first.1.position < second.1.position := by
  simp only [parts, List.mem_cons, List.not_mem_nil, or_false] at hpart
  rcases hpart with rfl | rfl | rfl | rfl | rfl | rfl
  · exact pairwise_listed [0] fun _ => rfl
  · exact pairwise_flatMap_zipIdx [1] (fun _ _ _ _ => position_scanNode)
      fun i node _ => pairwise_scanNode snapshot node i
  · exact pairwise_listed [2] fun _ => rfl
  · exact pairwise_listed [3] fun _ => rfl
  · exact pairwise_flatMap_zipIdx [4] (fun _ _ _ _ => position_scanEdge)
      fun i edge _ => pairwise_scanEdge snapshot edge i
  · exact pairwise_listed [5] fun _ => rfl

/-- The slots of the scan rise. -/
theorem pairwise_scan (snapshot : Snapshot) :
    snapshot.scan.Pairwise fun first second => first.1.position < second.1.position := by
  have hplaces : snapshot.scan = snapshot.parts.zipIdx.flatMap fun part => part.1 := by
    rw [scan, List.flatMap_def, List.zipIdx_map_fst]
  rw [hplaces]
  exact pairwise_flatMap_zipIdx [] (fun _ _ hpart _ => position_parts hpart)
    fun _ _ hpart => pairwise_parts (List.mem_of_getElem? hpart)

/-! ## What is refused and what is accepted -/

theorem mem_references {snapshot : Snapshot} {reference : Reference} :
    reference ∈ snapshot.references ↔ ∃ slot : Slot, slot.reference? snapshot = some reference := by
  rw [← map_scan, List.mem_map]
  constructor
  · rintro ⟨⟨slot, _⟩, hmem, rfl⟩
    exact ⟨slot, mem_scan.mp hmem⟩
  · rintro ⟨slot, hslot⟩
    exact ⟨(slot, reference), mem_scan.mpr hslot, rfl⟩

/-- **What a snapshot is refused for.**  It is refused for the first reference that
dangles. -/
theorem validate_eq_error_iff {snapshot : Snapshot} {reference : Reference} :
    snapshot.validate = .error reference ↔ snapshot.FirstDangling reference := by
  have hrefused : snapshot.validate = .error reference ↔ snapshot.dangling? = some reference := by
    rw [validate]
    cases snapshot.dangling? <;> simp
  rw [hrefused, dangling?, ← map_scan, List.find?_map, Option.map_eq_some_iff]
  constructor
  · rintro ⟨⟨slot, _⟩, hfound, rfl⟩
    obtain ⟨hmem, hdangling, hearlier⟩ :=
      (find?_eq_some_iff_of_pairwise snapshot.pairwise_scan).mp hfound
    refine ⟨slot, mem_scan.mp hmem, of_decide_eq_true hdangling, fun earlier other hlt hother => ?_⟩
    exact of_decide_eq_false (hearlier (earlier, other) (mem_scan.mpr hother) hlt)
  · rintro ⟨slot, hslot, hdangling, hearlier⟩
    refine ⟨(slot, reference), ?_, rfl⟩
    refine (find?_eq_some_iff_of_pairwise snapshot.pairwise_scan).mpr
      ⟨mem_scan.mpr hslot, decide_eq_true hdangling, ?_⟩
    rintro ⟨earlier, other⟩ hmem hlt
    exact decide_eq_false (hearlier earlier other hlt (mem_scan.mp hmem))

theorem WellReferenced.place_lt {snapshot : Snapshot} (hwell : snapshot.WellReferenced)
    {slot : Slot} {reference : Reference} (hslot : slot.reference? snapshot = some reference) :
    reference.place.toNat < reference.length := by
  cases slot with
  | classOfMethod i =>
      obtain ⟨method, hplace, rfl⟩ := Option.map_eq_some_iff.mp hslot
      exact hwell.classOfMethod method (List.mem_of_getElem? hplace)
  | methodOfNode i =>
      obtain ⟨node, hplace, rfl⟩ := Option.map_eq_some_iff.mp hslot
      exact hwell.methodOfNode node (List.mem_of_getElem? hplace)
  | callTarget i j k =>
      obtain ⟨node, hnode, hslot⟩ := Option.bind_eq_some_iff.mp hslot
      obtain ⟨site, hsite, hslot⟩ := Option.bind_eq_some_iff.mp hslot
      obtain ⟨target, htarget, heq⟩ := Option.bind_eq_some_iff.mp hslot
      obtain rfl := Option.some.inj heq
      exact hwell.callTarget node (List.mem_of_getElem? hnode) site (List.mem_of_getElem? hsite)
        target (List.mem_of_getElem? htarget)
  | entryPoint k =>
      obtain ⟨node, hplace, rfl⟩ := Option.map_eq_some_iff.mp hslot
      exact hwell.entryPoint node (List.mem_of_getElem? hplace)
  | nodeOfStatement i =>
      obtain ⟨statement, hplace, rfl⟩ := Option.map_eq_some_iff.mp hslot
      exact hwell.nodeOfStatement statement (List.mem_of_getElem? hplace)
  | edgeSource i =>
      obtain ⟨edge, hplace, rfl⟩ := Option.map_eq_some_iff.mp hslot
      exact hwell.edgeSource edge (List.mem_of_getElem? hplace)
  | edgeTarget i =>
      obtain ⟨edge, hplace, rfl⟩ := Option.map_eq_some_iff.mp hslot
      exact hwell.edgeTarget edge (List.mem_of_getElem? hplace)
  | entry k =>
      obtain ⟨statement, hplace, rfl⟩ := Option.map_eq_some_iff.mp hslot
      exact hwell.entry statement (List.mem_of_getElem? hplace)

theorem wellReferenced_of_place_lt {snapshot : Snapshot}
    (hlt : ∀ (slot : Slot) {reference : Reference}, slot.reference? snapshot = some reference →
      reference.place.toNat < reference.length) : snapshot.WellReferenced := by
  constructor
  case classOfMethod =>
    intro method hmem
    obtain ⟨i, hplace⟩ := List.getElem?_of_mem hmem
    exact hlt (.classOfMethod i) (Option.map_eq_some_iff.mpr ⟨method, hplace, rfl⟩)
  case methodOfNode =>
    intro node hmem
    obtain ⟨i, hplace⟩ := List.getElem?_of_mem hmem
    exact hlt (.methodOfNode i) (Option.map_eq_some_iff.mpr ⟨node, hplace, rfl⟩)
  case callTarget =>
    intro node hnode site hsite target htarget
    obtain ⟨i, hnode⟩ := List.getElem?_of_mem hnode
    obtain ⟨j, hsite⟩ := List.getElem?_of_mem hsite
    obtain ⟨k, htarget⟩ := List.getElem?_of_mem htarget
    have hslot : (Slot.callTarget i j k).reference? snapshot =
        some ⟨.callTarget, i, target, snapshot.callGraph.nodes.length⟩ := by
      simp [Slot.reference?, hnode, hsite, htarget]
    exact hlt _ hslot
  case entryPoint =>
    intro node hmem
    obtain ⟨k, hplace⟩ := List.getElem?_of_mem hmem
    exact hlt (.entryPoint k) (Option.map_eq_some_iff.mpr ⟨node, hplace, rfl⟩)
  case nodeOfStatement =>
    intro statement hmem
    obtain ⟨i, hplace⟩ := List.getElem?_of_mem hmem
    exact hlt (.nodeOfStatement i) (Option.map_eq_some_iff.mpr ⟨statement, hplace, rfl⟩)
  case edgeSource =>
    intro edge hmem
    obtain ⟨i, hplace⟩ := List.getElem?_of_mem hmem
    exact hlt (.edgeSource i) (Option.map_eq_some_iff.mpr ⟨edge, hplace, rfl⟩)
  case edgeTarget =>
    intro edge hmem
    obtain ⟨i, hplace⟩ := List.getElem?_of_mem hmem
    exact hlt (.edgeTarget i) (Option.map_eq_some_iff.mpr ⟨edge, hplace, rfl⟩)
  case entry =>
    intro statement hmem
    obtain ⟨k, hplace⟩ := List.getElem?_of_mem hmem
    exact hlt (.entry k) (Option.map_eq_some_iff.mpr ⟨statement, hplace, rfl⟩)

/-- **What is accepted.**  A snapshot is accepted exactly if every place that it refers
to is there. -/
theorem exists_validate_iff {snapshot : Snapshot} :
    (∃ view, snapshot.validate = .ok view) ↔ snapshot.WellReferenced := by
  constructor
  · rintro ⟨view, hvalid⟩
    obtain ⟨hchecked, -⟩ := validate_eq_ok hvalid
    refine wellReferenced_of_place_lt fun slot reference hslot => ?_
    exact Nat.not_le.mp (hchecked reference (mem_references.mpr ⟨slot, hslot⟩))
  · intro hwell
    have hnone : snapshot.dangling? = none := by
      refine List.find?_eq_none.mpr fun reference hmem => ?_
      obtain ⟨slot, hslot⟩ := mem_references.mp hmem
      rw [decide_eq_true_iff]
      exact Nat.not_le.mpr (hwell.place_lt hslot)
    rw [validate, hnone]
    exact ⟨_, rfl⟩

end Snapshot

end ProgramGraphs
