import ProgramGraphs.Canonical.Build
import ProgramGraphs.Proofs.Class.Origins
import ProgramGraphs.Proofs.Render.Legal
import ProgramGraphs.Record.Graphs
import ProgramGraphs.Render.Document

/-!
# Which snapshots have legal GraphML documents

A document of a class graph takes the names of classes and of methods from the snapshot,
and one of a canonical graph also labels and contexts of edges; a snapshot may spell any
character in these.  So the documents are legal XML exactly when these texts are
(`documents_legal_iff`).  Ids of classes are names, and one with a tab is the id with a
blank to an XML reader (`tabbed_ids_blanked`); ids of statements are numerals.
-/

namespace ProgramGraphs

open Render.GraphMl

/-! ## Class graphs and canonical graphs -/

/-- An attribute map whose names may stand anywhere in a document. -/
def Attributes.Harmless (attributes : Attributes) : Prop :=
  ∀ name ∈ attributes.toList.map Prod.fst, Legal name.toList ∧ Steady name.toList

theorem Attributes.Harmless.legalMap_iff {attributes : Attributes} (hnames : attributes.Harmless) :
    LegalMap attributes ↔ ∀ value ∈ attributes.toList.map Prod.snd, LegalValue value := by
  have hlegal : ∀ entry ∈ attributes.toList, Legal entry.1.toList := fun entry hentry =>
    (hnames _ (List.mem_map_of_mem hentry)).1
  rw [List.forall_mem_map]
  exact forall₂_congr fun entry hentry => and_iff_right (hlegal entry hentry)

theorem Attributes.Harmless.steadyNames {attributes : Attributes} (hnames : attributes.Harmless) :
    SteadyNames attributes :=
  fun _ hentry => (hnames _ (List.mem_map_of_mem hentry)).2

namespace ClassVertex

theorem harmless_toRecord (vertex : ClassVertex) : vertex.toRecord.attributes.Harmless := by
  have hnames : ∀ name ∈ ["class_name", "is_class_private", "num_total_fields",
      "num_static_fields", "num_instance_fields", "num_total_methods", "num_static_methods"],
      Legal name.toList ∧ Steady name.toList := by
    decide
  exact hnames

theorem legalMap_toRecord (vertex : ClassVertex) :
    LegalMap vertex.toRecord.attributes ↔ Legal vertex.className.toList := by
  have hvalues : vertex.toRecord.attributes.toList.map Prod.snd =
      [.text vertex.className, .bool vertex.isPrivate, .ofCount vertex.totalFields,
        .ofCount vertex.staticFields, .ofCount vertex.instanceFields,
        .ofCount vertex.totalMethods, .ofCount vertex.staticMethods] := rfl
  rw [vertex.harmless_toRecord.legalMap_iff, hvalues]
  simp [LegalValue, Attribute.ofCount]

end ClassVertex

namespace ClassGraph

/-- The texts that a document takes from a class graph. -/
def names (graph : ClassGraph) : List String :=
  graph.vertices.toList.map (·.className) ++
    graph.edges.flatMap fun edge => [edge.2.2.sourceMethod, edge.2.2.targetMethod]

theorem ends_mem_vertices {graph : ClassGraph} {edge : ClassVertex × ClassVertex × CallEdge}
    (hedge : edge ∈ graph.edges) :
    edge.1 ∈ graph.vertices.toList ∧ edge.2.1 ∈ graph.vertices.toList := by
  obtain ⟨link, -, hlink⟩ := List.mem_filterMap.mp hedge
  obtain ⟨source, hsource, hlink⟩ := Option.bind_eq_some_iff.mp hlink
  obtain ⟨target, htarget, hlink⟩ := Option.bind_eq_some_iff.mp hlink
  obtain rfl := Option.some.inj hlink
  exact ⟨Array.mem_toList_iff.mpr (Array.mem_of_getElem? hsource),
    Array.mem_toList_iff.mpr (Array.mem_of_getElem? htarget)⟩

/-- The attributes of an edge. -/
def callAttributes (call : CallEdge) : Attributes :=
  Attributes.ofList [("weight", .float call.weight), ("source_method", .text call.sourceMethod),
    ("target_method", .text call.targetMethod)]

theorem harmless_callAttributes (call : CallEdge) : (callAttributes call).Harmless := by
  have hnames : ∀ name ∈ ["weight", "source_method", "target_method"],
      Legal name.toList ∧ Steady name.toList := by
    decide
  exact hnames

theorem legalMap_callAttributes (call : CallEdge) :
    LegalMap (callAttributes call) ↔
      Legal call.sourceMethod.toList ∧ Legal call.targetMethod.toList := by
  have hvalues : (callAttributes call).toList.map Prod.snd =
      [.float call.weight, .text call.sourceMethod, .text call.targetMethod] := rfl
  rw [(harmless_callAttributes call).legalMap_iff, hvalues]
  simp [LegalValue]

theorem legal_graphMl_iff (graph : ClassGraph) :
    Legal (Render.graphMl graph.toRecord).toList ↔ ∀ name ∈ graph.names, Legal name.toList := by
  rw [Render.graphMl, String.toList_ofList, legal_document_iff, names, List.forall_mem_append]
  constructor
  · rintro ⟨hvertices, hedges⟩
    refine ⟨List.forall_mem_map.mpr fun vertex hvertex => ?_,
      List.forall_mem_flatMap.mpr fun edge hedge => ?_⟩
    · exact (hvertices _ (List.mem_map_of_mem hvertex)).1
    · have hattributes : LegalMap (callAttributes edge.2.2) :=
        (hedges _ (List.mem_map_of_mem hedge)).2.2
      simpa using (legalMap_callAttributes edge.2.2).mp hattributes
  · rintro ⟨hclasses, hmethods⟩
    have hvertex : ∀ vertex ∈ graph.vertices.toList, Legal vertex.className.toList :=
      fun vertex hmem => hclasses _ (List.mem_map_of_mem hmem)
    refine ⟨List.forall_mem_map.mpr fun vertex hmem => ?_,
      List.forall_mem_map.mpr fun edge hmem => ?_⟩
    · exact ⟨hvertex vertex hmem, vertex.legalMap_toRecord.mpr (hvertex vertex hmem)⟩
    · have hends := ends_mem_vertices hmem
      have hcall : Legal edge.2.2.sourceMethod.toList ∧ Legal edge.2.2.targetMethod.toList := by
        simpa using List.forall_mem_flatMap.mp hmethods edge hmem
      exact ⟨hvertex _ hends.1, hvertex _ hends.2, (legalMap_callAttributes edge.2.2).mpr hcall⟩

theorem steadyReferences_graphMl_iff (graph : ClassGraph) :
    SteadyReferences (Render.graphMl graph.toRecord).toList ↔
      ∀ vertex ∈ graph.vertices.toList, Steady vertex.className.toList := by
  have hvertices : ∀ vertex ∈ graph.toRecord.vertices, SteadyNames vertex.attributes :=
    List.forall_mem_map.mpr fun vertex _ => vertex.harmless_toRecord.steadyNames
  have hedges : ∀ edge ∈ graph.toRecord.edges, SteadyNames edge.attributes :=
    List.forall_mem_map.mpr fun edge _ => (harmless_callAttributes edge.2.2).steadyNames
  rw [Render.graphMl, String.toList_ofList, steadyReferences_document_iff hvertices hedges]
  constructor
  · exact fun hsteady vertex hmem => hsteady.1 _ (List.mem_map_of_mem hmem)
  · intro hsteady
    refine ⟨List.forall_mem_map.mpr hsteady, List.forall_mem_map.mpr fun edge hmem => ?_⟩
    have hends := ends_mem_vertices hmem
    exact ⟨hsteady _ hends.1, hsteady _ hends.2⟩

end ClassGraph

namespace CanonicalVertex

theorem harmless_toRecord (vertex : CanonicalVertex) :
    vertex.toRecord.attributes.Harmless := by
  have hnames : ∀ name ∈ ["class", "method", "position"],
      Legal name.toList ∧ Steady name.toList := by
    decide
  exact hnames

theorem legalMap_toRecord (vertex : CanonicalVertex) :
    LegalMap vertex.toRecord.attributes ↔
      Legal vertex.className.toList ∧ Legal vertex.method.toList := by
  have hvalues : vertex.toRecord.attributes.toList.map Prod.snd =
      [.text vertex.className, .text vertex.method,
        .int (Int64.ofInt vertex.position.toInt)] := rfl
  rw [vertex.harmless_toRecord.legalMap_iff, hvalues]
  simp [LegalValue]

end CanonicalVertex

namespace CanonicalEdge

theorem harmless_toRecord (edge : CanonicalEdge) : edge.toRecord.attributes.Harmless := by
  have hnames : ∀ name ∈ ["type", "between", "context"],
      Legal name.toList ∧ Steady name.toList := by
    decide
  exact hnames

theorem legalValue_ofOption (text : Option String) :
    LegalValue (.ofOption text) ↔ ∀ value ∈ text, Legal value.toList := by
  cases text <;> simp [Attribute.ofOption, LegalValue]

theorem legalMap_toRecord (edge : CanonicalEdge) :
    LegalMap edge.toRecord.attributes ↔
      (∀ name ∈ edge.edgeType, Legal name.toList) ∧ ∀ name ∈ edge.context, Legal name.toList := by
  have hvalues : edge.toRecord.attributes.toList.map Prod.snd =
      [.ofOption edge.edgeType, .text edge.between, .ofOption edge.context] := rfl
  have hbetween : LegalValue (.text edge.between) := by
    have hcomma : Legal (toString ",").toList := by decide
    simp [LegalValue, between, legal_toDigits, hcomma]
  rw [edge.harmless_toRecord.legalMap_iff, hvalues, List.forall_mem_cons, List.forall_mem_cons,
    List.forall_mem_singleton, legalValue_ofOption, legalValue_ofOption, and_iff_right hbetween]

end CanonicalEdge

namespace CanonicalGraph

/-- The texts that a document takes from a canonical graph. -/
def names (graph : CanonicalGraph) : List String :=
  graph.vertices.flatMap (fun vertex => [vertex.className, vertex.method]) ++
    graph.edges.flatMap fun edge => edge.edgeType.toList ++ edge.context.toList

theorem legal_graphMl_iff (graph : CanonicalGraph) :
    Legal (Render.graphMl graph.toRecord).toList ↔ ∀ name ∈ graph.names, Legal name.toList := by
  have hid : ∀ id : Nat, Legal (toString id).toList := by simp [legal_toDigits]
  rw [Render.graphMl, String.toList_ofList, legal_document_iff, names, List.forall_mem_append,
    List.forall_mem_flatMap, List.forall_mem_flatMap]
  refine and_congr ?_ ?_
  · refine List.forall_mem_map.trans <| forall₂_congr fun vertex _ => ?_
    rw [vertex.legalMap_toRecord, List.forall_mem_cons, List.forall_mem_singleton]
    exact and_iff_right (hid vertex.id)
  · refine List.forall_mem_map.trans <| forall₂_congr fun edge _ => ?_
    rw [edge.legalMap_toRecord, List.forall_mem_append]
    simp [CanonicalEdge.toRecord, legal_toDigits]

/-- Ids of statements are numerals. -/
theorem steadyReferences_graphMl (graph : CanonicalGraph) :
    SteadyReferences (Render.graphMl graph.toRecord).toList := by
  have hid : ∀ id : Nat, Steady (toString id).toList := by simp [steady_toDigits]
  have hvertices : ∀ vertex ∈ graph.toRecord.vertices, SteadyNames vertex.attributes :=
    List.forall_mem_map.mpr fun vertex _ => vertex.harmless_toRecord.steadyNames
  have hedges : ∀ edge ∈ graph.toRecord.edges, SteadyNames edge.attributes :=
    List.forall_mem_map.mpr fun edge _ => edge.harmless_toRecord.steadyNames
  rw [Render.graphMl, String.toList_ofList, steadyReferences_document_iff hvertices hedges]
  exact ⟨List.forall_mem_map.mpr fun vertex _ => hid vertex.id,
    List.forall_mem_map.mpr fun edge _ => ⟨hid edge.source, hid edge.target⟩⟩

end CanonicalGraph

namespace Snapshot

variable {snapshot : Snapshot} {view : View}

/-- **Which GraphML documents of a snapshot are legal.**  Those of both graphs are made of
characters that XML allows exactly when the texts that they show are.  References to
classes stand for themselves exactly when no name of a class has a tab or a line break;
references to statements always do. -/
theorem documents_legal_iff (hvalid : snapshot.validate = .ok view) (scope : Scope)
    (policy : BackEdgePolicy) (labeler : Labeler Nat) :
    let classes := view.callGraph.reduce scope
    let statements := view.dependencyGraph.canonicalize scope policy labeler
    let classText := (classes.toRecord.render .graphMl).toList
    let statementText := (statements.toRecord.render .graphMl).toList
    view.callGraph? = some view.callGraph ∧ view.dependencyGraph? = some view.dependencyGraph ∧
      (Legal classText ↔ ∀ name ∈ classes.names, Legal name.toList) ∧
      (Legal statementText ↔ ∀ name ∈ statements.names, Legal name.toList) ∧
      (SteadyReferences classText ↔
        ∀ vertex ∈ classes.vertices.toList, Steady vertex.className.toList) ∧
      SteadyReferences statementText := by
  intro classes statements classText statementText
  exact ⟨callGraph?_eq hvalid, dependencyGraph?_eq hvalid, classes.legal_graphMl_iff,
    statements.legal_graphMl_iff, classes.steadyReferences_graphMl_iff,
    statements.steadyReferences_graphMl⟩

/-- Two classes call one another, whose names an XML reader cannot tell apart. -/
def tabbed : Snapshot :=
  { classes := [{ name := "Lp/A\tB", loader := "Application" },
      { name := "Lp/A B", loader := "Application" }]
    methods := [⟨"run", 0⟩, ⟨"serve", 1⟩]
    callGraph := { nodes := [⟨0, [{ targets := [1] }]⟩, ⟨1, []⟩], entryPoints := [0] } }

theorem vertices_tabbed :
    ((unchecked tabbed).callGraph.reduce ({} : LoaderScope).toScope).vertices.toList.map
      (·.className) = ["p.A\tB", "p.A B"] := by
  have horigins : (unchecked tabbed).callGraph.origins ({} : LoaderScope).toScope = [0, 1] := by
    decide +kernel
  rw [CallGraph.vertices_reduce, horigins]
  decide +kernel

theorem documents_legal_iff_tabbed :
    let classes := (unchecked tabbed).callGraph.reduce ({} : LoaderScope).toScope
    let classText := (classes.toRecord.render .graphMl).toList
    tabbed.validate = .ok (unchecked tabbed) ∧
      (Legal classText ↔ ∀ name ∈ classes.names, Legal name.toList) ∧
      (SteadyReferences classText ↔
        ∀ vertex ∈ classes.vertices.toList, Steady vertex.className.toList) := by
  intro classes classText
  have hvalid : tabbed.validate = .ok (unchecked tabbed) := rfl
  obtain ⟨-, -, hlegal, -, hsteady, -⟩ := documents_legal_iff hvalid ({} : LoaderScope).toScope
    .anyNested fun _ _ => none
  exact ⟨hvalid, hlegal, hsteady⟩

/-- A tab in the name of a class stands raw in the ids of a document. -/
theorem tabbed_ids_blanked :
    ¬ ∀ (snapshot : Snapshot) (view : View) (scope : Scope), snapshot.validate = .ok view →
      Legal ((view.callGraph.reduce scope).toRecord.render .graphMl).toList ∧
        SteadyReferences ((view.callGraph.reduce scope).toRecord.render .graphMl).toList := by
  intro hsteady
  have hvalid : tabbed.validate = .ok (unchecked tabbed) := rfl
  have hreferences := (hsteady tabbed (unchecked tabbed) ({} : LoaderScope).toScope hvalid).2
  have hnames : ∀ name ∈ ["p.A\tB", "p.A B"], Steady name.toList := by
    rw [← vertices_tabbed]
    exact List.forall_mem_map.mpr ((ClassGraph.steadyReferences_graphMl_iff _).mp hreferences)
  exact absurd hnames (by decide)

end Snapshot

end ProgramGraphs
