import ProgramGraphs.Proofs.Class.Origins
import ProgramGraphs.Proofs.Render.Agreement

/-!
# Exported counts

The counts of a class are 64-bit words, and attributes are signed ones.  A count is
exported as the same bits, so all documents of a class graph show it as the number that
these bits stand for with a sign: itself below `2 ^ 63`, and a negative number from there
on (`signedNumeral_eq_iff`).  Nothing checks the bound.  The class of a snapshot may have
`2 ^ 64 - 1` fields, and every document then says `-1` (`vast_shown_negative`).

Weights do not matter here.  They are not restricted either, so of a JSON document only
the list of vertices is read (`Format.Lists`).
-/

namespace ProgramGraphs

open Json Render

/-! ## Listed vertices -/

/-- What stands before the list of vertices in a JSON document. -/
def Render.jsonOpening : String :=
  "\x7b\n  \"version\": \"1\",\n  \"directed\": true,\n  \"nodes\": "

/-- What the list of vertices of a JSON document says. -/
def Facts.verticesOfJson? (text : String) : Option (List (String × List (String × String))) := do
  let document := Document.ofTextBy Numeral.exactNode text
  guard !document.trailing
  (← document.root.items?).mapM Node.vertexFacts?

/-- Whether a document lists some vertices, read by the rules of its format. -/
def Format.Lists (text : String) (vertices : List (String × List (String × String))) :
    Format → Prop
  | .json => ∃ list rest, text = jsonOpening ++ list ++ rest ∧
      Facts.verticesOfJson? list = some vertices
  | .graphMl => ∃ facts, Facts.ofGraphMl? text = some facts ∧ facts.vertices = vertices
  | .dot => ∃ facts, Facts.ofDot? text = some facts ∧ facts.vertices = vertices

theorem json_eq (graph : GraphRecord) :
    let list := Value.list (graph.vertices.map vertexToJson)
    ∃ rest, json graph =
      jsonOpening ++ String.ofList (list.laidOnto .spread 1 []) ++ String.ofList rest := by
  intro list
  obtain ⟨rest, hrest⟩ : ∃ rest, (graphToJson graph).spreadOnto 0 [] =
      jsonOpening.toList ++ list.spreadOnto 1 rest := ⟨_, rfl⟩
  have hsplit := Value.laidOnto_append .spread 1 list [] rest
  refine ⟨rest, ?_⟩
  apply String.toList_injective
  rw [json, Value.pretty, hrest, Value.spreadOnto_eq]
  simpa using hsplit

theorem verticesOfJson?_list {vertices : List VertexRecord}
    (hwhole : ∀ vertex ∈ vertices, vertex.attributes.FloatsWhole) :
    Facts.verticesOfJson?
        (String.ofList ((Value.list (vertices.map vertexToJson)).laidOnto .spread 1 [])) =
      some (vertices.map fun vertex => (vertex.id, vertex.attributes.shown)) := by
  have hlist : (Value.list (vertices.map vertexToJson)).FloatsWhole := by
    rw [Value.FloatsWhole, itemsWhole_iff]
    intro item hitem
    obtain ⟨vertex, hvertex, rfl⟩ := List.mem_map.mp hitem
    exact ⟨trivial, Attributes.floatsWhole_toJson (hwhole vertex hvertex), trivial⟩
  have hread : Facts.verticesOfJson?
      (String.ofList ((Value.list (vertices.map vertexToJson)).laidOnto .spread 1 [])) =
        (Value.itemNodes Numeral.exactNode (vertices.map vertexToJson)).toList?.bind fun nodes =>
          nodes.mapM Node.vertexFacts? := by
    rw [Facts.verticesOfJson?, Document.ofTextBy_laidOnto .spread 1 hlist]
    rfl
  rw [hread, toList?_itemNodes, Option.bind_some, List.map_map]
  exact mapM_map_eq_some fun vertex hvertex => vertexFacts?_vertexToJson (hwhole vertex hvertex)

/-- **Every document of a graph lists its vertices**, whatever the weights of its edges
are. -/
theorem lists_render {graph : GraphRecord}
    (hwhole : ∀ vertex ∈ graph.vertices, vertex.attributes.FloatsWhole) (format : Format) :
    format.Lists (graph.render format) graph.facts.vertices := by
  cases format with
  | json =>
      obtain ⟨rest, htext⟩ := json_eq graph
      exact ⟨_, _, htext, verticesOfJson?_list hwhole⟩
  | graphMl => exact ⟨graph.facts, GraphMl.ofGraphMl?_graphMl graph, rfl⟩
  | dot => exact ⟨graph.facts, Dot.ofDot?_dot graph, rfl⟩

/-! ## Counts -/

namespace ClassInfo

/-- The counts of a class, under the names of their attributes. -/
def counts (info : ClassInfo) : List (String × Nat) :=
  [("num_total_fields", info.totalFields.toNat), ("num_static_fields", info.staticFields.toNat),
   ("num_instance_fields", info.instanceFields.toNat),
   ("num_total_methods", info.methods.length),
   ("num_static_methods", info.methods.countP (·.isStatic))]

/-- What a document says of a class when it writes counts in a given way. -/
def shownBy (numeral : Nat → String) (info : ClassInfo) : String × List (String × String) :=
  (info.exportedName.qualified,
    ("class_name", info.exportedName.qualified) ::
    ("is_class_private", if info.isPrivate then "true" else "false") ::
    info.counts.map fun count => (count.1, numeral count.2))

end ClassInfo

/-- The numeral of the signed word with the bits of a count. -/
def signedNumeral (count : Nat) : String := toString ((count : Int).bmod (2 ^ 64))

theorem display_ofCount (count : UInt64) :
    (Attribute.ofCount count).display = signedNumeral count.toNat :=
  congrArg toString count.toBitVec.toInt_eq_toNat_bmod

/-- Counts of methods are cut down to words before they are exported, which leaves the
bits of the word as they are. -/
theorem signedNumeral_mod (count : Nat) :
    signedNumeral (count % 2 ^ 64) = signedNumeral count := by
  rw [signedNumeral, signedNumeral, Int.natCast_mod]
  exact congrArg toString (Int.emod_bmod (count : Int) (2 ^ 64))

theorem signedNumeral_eq_iff (count : Nat) :
    signedNumeral count = toString count ↔ count < 2 ^ 63 := by
  have hrepr : ∀ value : Int, toString value = toString count ↔ value = count :=
    fun value => Int.repr_inj (a := value) (b := count)
  rw [signedNumeral, hrepr]
  constructor
  · intro hsame
    have hbound := Int.bmod_lt (x := (count : Int)) (m := 2 ^ 64) (Nat.two_pow_pos 64)
    omega
  · intro hlt
    exact Int.bmod_eq_of_le (by omega) (by omega)

/-- What is exported of the vertex of a class. -/
theorem shown_ofClass (info : ClassInfo) :
    let record := (ClassVertex.ofClass info).toRecord
    (record.id, record.attributes.shown) = info.shownBy signedNumeral := by
  have hbool : (Attribute.bool info.isPrivate).display =
      if info.isPrivate then "true" else "false" := rfl
  have hshown : (ClassVertex.ofClass info).toRecord.attributes.shown =
      [("class_name", info.exportedName.qualified),
       ("is_class_private", (Attribute.bool info.isPrivate).display),
       ("num_total_fields", (Attribute.ofCount info.totalFields).display),
       ("num_static_fields", (Attribute.ofCount info.staticFields).display),
       ("num_instance_fields", (Attribute.ofCount info.instanceFields).display),
       ("num_total_methods", (Attribute.ofCount (.ofNat info.methods.length)).display),
       ("num_static_methods",
          (Attribute.ofCount (.ofNat (info.methods.countP (·.isStatic)))).display)] := rfl
  intro record
  rw [hshown]
  simp only [hbool, display_ofCount, UInt64.toNat_ofNat', signedNumeral_mod]
  rfl

/-- Some classes are shown as they are exactly when none of their counts is too large. -/
theorem map_shownBy_eq_iff (infos : List ClassInfo) :
    infos.map (ClassInfo.shownBy signedNumeral) = infos.map (ClassInfo.shownBy toString) ↔
      ∀ info ∈ infos, ∀ count ∈ info.counts, count.2 < 2 ^ 63 := by
  rw [List.map_inj_left]
  refine forall₂_congr fun info _ => ?_
  have hsame : info.shownBy signedNumeral = info.shownBy toString ↔
      ∀ count ∈ info.counts, signedNumeral count.2 = toString count.2 := by
    simp [ClassInfo.shownBy]
  rw [hsame]
  exact forall₂_congr fun count _ => signedNumeral_eq_iff count.2

/-! ## Class graphs -/

namespace CallGraph

variable {N : Type} (graph : CallGraph N) (scope : Scope)

/-- The classes that the vertices of the class graph were built from. -/
def shownClasses : List ClassInfo := (graph.origins scope).map graph.declaringClass

theorem vertices_eq_map_shownClasses :
    (graph.reduce scope).vertices.toList = (graph.shownClasses scope).map ClassVertex.ofClass := by
  rw [graph.vertices_reduce scope, shownClasses, List.map_map]
  rfl

theorem facts_vertices_reduce :
    (graph.reduce scope).toRecord.facts.vertices =
      (graph.shownClasses scope).map (ClassInfo.shownBy signedNumeral) := by
  rw [GraphRecord.facts, ClassGraph.toRecord, vertices_eq_map_shownClasses, List.map_map,
    List.map_map]
  exact List.map_congr_left fun info _ => shown_ofClass info

theorem lists_reduce (format : Format) :
    format.Lists ((graph.reduce scope).toRecord.render format)
      ((graph.shownClasses scope).map (ClassInfo.shownBy signedNumeral)) := by
  rw [← facts_vertices_reduce]
  refine lists_render (List.forall_mem_map.mpr fun vertex _ => ?_) format
  exact Attributes.floatsWhole_ofList (by simp [Attribute.FloatWhole, Attribute.ofCount])

end CallGraph

namespace Snapshot

variable {snapshot : Snapshot} {view : View}

/-- The shown classes are classes of the snapshot. -/
theorem mem_classes_of_shown (hvalid : snapshot.validate = .ok view) {scope : Scope}
    {info : ClassInfo} (hshown : info ∈ view.callGraph.shownClasses scope) :
    info ∈ snapshot.classes := by
  obtain ⟨node, horigin, rfl⟩ := List.mem_map.mp hshown
  exact declaringClass_mem_classes hvalid horigin

/-- **What documents say of the counts of classes.**  Each vertex was built from a class
of the snapshot, and every document shows the counts of this class as signed words.
These are the counts themselves exactly when all of them are below `2 ^ 63`. -/
theorem documents_show_counts (hvalid : snapshot.validate = .ok view) (scope : Scope) :
    let graph := view.callGraph
    let infos := graph.shownClasses scope
    view.callGraph? = some graph ∧
      (∀ info ∈ infos, info ∈ snapshot.classes) ∧
      (graph.reduce scope).vertices.toList = infos.map ClassVertex.ofClass ∧
      (∀ format : Format, format.Lists ((graph.reduce scope).toRecord.render format)
        (infos.map (ClassInfo.shownBy signedNumeral))) ∧
      (infos.map (ClassInfo.shownBy signedNumeral) = infos.map (ClassInfo.shownBy toString) ↔
        ∀ info ∈ infos, ∀ count ∈ info.counts, count.2 < 2 ^ 63) := by
  intro graph infos
  refine ⟨callGraph?_eq hvalid, fun info => mem_classes_of_shown hvalid,
    graph.vertices_eq_map_shownClasses scope, fun format => ?_, map_shownBy_eq_iff infos⟩
  exact graph.lists_reduce scope format

/-- A class with as many fields as a word can count calls another one. -/
def vast : Snapshot :=
  { classes := [{ name := "Lp/Vast", loader := "Application", totalFields := 0xFFFFFFFFFFFFFFFF },
      { name := "Lp/Used", loader := "Application" }]
    methods := [⟨"run", 0⟩, ⟨"serve", 1⟩]
    callGraph := { nodes := [⟨0, [{ targets := [1] }]⟩, ⟨1, []⟩], entryPoints := [0] } }

theorem documents_show_vast :
    let graph := (unchecked vast).callGraph
    let scope := ({} : LoaderScope).toScope
    vast.validate = .ok (unchecked vast) ∧
      ∀ format : Format, format.Lists ((graph.reduce scope).toRecord.render format)
        ((graph.shownClasses scope).map (ClassInfo.shownBy signedNumeral)) := by
  intro graph scope
  have hvalid : vast.validate = .ok (unchecked vast) := rfl
  obtain ⟨-, -, -, hlists, -⟩ := documents_show_counts hvalid scope
  exact ⟨hvalid, hlists⟩

/-- The documents of a class graph do not always show the counts of its classes. -/
theorem vast_shown_negative :
    ¬ ∀ (snapshot : Snapshot) (view : View) (scope : Scope) (format : Format),
      snapshot.validate = .ok view →
      format.Lists ((view.callGraph.reduce scope).toRecord.render format)
        ((view.callGraph.shownClasses scope).map (ClassInfo.shownBy toString)) := by
  intro hexact
  have hvalid : vast.validate = .ok (unchecked vast) := rfl
  obtain ⟨facts, hread, hfacts⟩ :=
    hexact vast (unchecked vast) ({} : LoaderScope).toScope .graphMl hvalid
  have hsame : (unchecked vast).callGraph.shownClasses ({} : LoaderScope).toScope =
      vast.classes := by
    decide +kernel
  have hshown := CallGraph.facts_vertices_reduce (unchecked vast).callGraph
    ({} : LoaderScope).toScope
  rw [GraphRecord.render, GraphMl.ofGraphMl?_graphMl, Option.some.injEq] at hread
  rw [← hread, hshown, hsame, map_shownBy_eq_iff] at hfacts
  have hfields := hfacts _ List.mem_cons_self ("num_total_fields", 0xFFFFFFFFFFFFFFFF)
    List.mem_cons_self
  exact absurd hfields (by decide)

end Snapshot

end ProgramGraphs
