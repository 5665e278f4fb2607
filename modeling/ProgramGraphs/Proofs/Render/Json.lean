import ProgramGraphs.Proofs.Json.Printed
import ProgramGraphs.Proofs.Render.Facts
import ProgramGraphs.Proofs.Render.Reading
import ProgramGraphs.Render.Json

/-!
# What a JSON document says

A JSON document is parsed, and its scalars are coerced to texts; missing values are
dropped.  The document of a graph then says what it is to say (`ofJson?_json`).
-/

namespace ProgramGraphs

/-! ## Decoding -/

namespace Json

/-- The items of a list that is complete. -/
def Items.toList? : Items → Option (List Node)
  | .close => some []
  | .item value rest => rest.toList?.map (value :: ·)
  | .stopped _ => none

/-- The members of an object that is complete. -/
def Members.toList? : Members → Option (List (String × Node))
  | .close => some []
  | .member (some key) value rest => rest.toList?.map ((key, value) :: ·)
  | _ => none

namespace Node

/-- The items of a list. -/
def items? : Node → Option (List Node)
  | .list items => items.toList?
  | _ => none

/-- The members of an object. -/
def members? : Node → Option (List (String × Node))
  | .object members => members.toList?
  | _ => none

/-- The content of a text. -/
def content? : Node → Option String
  | .string text => some text
  | _ => none

/-- A scalar as a text; `null` has none. -/
def coerce : Node → Option String
  | .string text => some text
  | .bool true => some "true"
  | .bool false => some "false"
  | .integer value => some (toString value)
  | .float value => some (Decimal.render Decimal.Layout.json value)
  | _ => none

/-- The coerced texts of members. -/
def coerced (members : List (String × Node)) : List (String × String) :=
  members.filterMap fun member => member.2.coerce.map (member.1, ·)

/-- What a vertex object says. -/
def vertexFacts? (node : Node) : Option (String × List (String × String)) := do
  let members ← node.members?
  let id ← (← members.lookup "id").content?
  let attributes ← (← members.lookup "attributes").members?
  return (id, coerced attributes)

/-- What an edge object says. -/
def edgeFacts? (node : Node) : Option (String × String × List (String × String)) := do
  let members ← node.members?
  let source ← (← members.lookup "source").content?
  let target ← (← members.lookup "target").content?
  let attributes ← (← members.lookup "attributes").members?
  return (source, target, coerced attributes)

end Node

end Json

open Json

/-- What a JSON document of a graph says. -/
def Facts.ofJson? (text : String) : Option Facts := do
  let document := Document.ofTextBy Numeral.exactNode text
  guard !document.trailing
  let members ← document.root.members?
  let vertices ← (← (← members.lookup "nodes").items?).mapM Node.vertexFacts?
  let edges ← (← (← members.lookup "edges").items?).mapM Node.edgeFacts?
  return { vertices, edges }

/-! ## The document of a graph -/

namespace Json

variable {val : Numeral → Node}

theorem toList?_itemNodes (items : List Value) :
    (Value.itemNodes val items).toList? = some (items.map (Value.node val)) := by
  induction items with
  | nil => rfl
  | cons item items ih => rw [Value.itemNodes, Items.toList?, ih]; rfl

theorem toList?_memberNodes (members : List (String × Value)) :
    (Value.memberNodes val members).toList? =
      some (members.map fun member => (member.1, member.2.node val)) := by
  induction members with
  | nil => rfl
  | cons member members ih => rw [Value.memberNodes, Members.toList?, ih]; rfl

end Json

/-- **A value is coerced to its displayed text**, and dropped where it is missing. -/
theorem Attribute.coerce_toJson {value : Attribute} (hwhole : value.FloatWhole) :
    (value.toJson.node Numeral.exactNode).coerce =
      if value.isNull then none else some value.display := by
  cases value with
  | bool value => cases value <;> rfl
  | int value =>
      have hexact : (Numeral.ofInt value.toInt).exactNode = .integer value.toInt := by
        have hlow := value.le_toInt
        have hhigh := value.toInt_lt
        rw [Numeral.exactNode, Numeral.integer?_ofInt (by omega) (by omega)]
      rw [toJson, Value.node, hexact]
      rfl
  | float value =>
      have htexts : Decimal.render Decimal.Layout.json value =
          Decimal.render Decimal.Layout.display value := by
        rw [← String.toList_inj]
        exact (hwhole.render_eq (by decide) (by decide)).trans
          (hwhole.render_eq (by decide) (by decide)).symm
      rw [toJson, Value.node, Numeral.exactNode_ofFloat hwhole]
      exact congrArg some htexts
  | text value => rfl
  | null => rfl

namespace Attributes

variable {attributes : Attributes}

/-- The members of the object of an attribute map, as they are read. -/
def members (attributes : Attributes) : List (String × Node) :=
  attributes.toList.map fun entry => (entry.1, entry.2.toJson.node Numeral.exactNode)

theorem members?_toJson (attributes : Attributes) :
    (attributes.toJson.node Numeral.exactNode).members? = some attributes.members := by
  rw [toJson, Value.node, Node.members?, toList?_memberNodes, List.map_map]
  rfl

theorem coerced_members (hwhole : attributes.FloatsWhole) :
    Node.coerced attributes.members = attributes.shown := by
  rw [members, Node.coerced, List.filterMap_map]
  refine List.filterMap_congr fun entry hentry => ?_
  rw [Function.comp_apply, Attribute.coerce_toJson (hwhole entry hentry)]
  split <;> simp_all

theorem floatsWhole_toJson (hwhole : attributes.FloatsWhole) : attributes.toJson.FloatsWhole := by
  rw [toJson, Value.FloatsWhole, membersWhole_iff]
  intro member hmember
  obtain ⟨entry, hentry, rfl⟩ := List.mem_map.mp hmember
  have hfloat := hwhole entry hentry
  obtain ⟨key, value⟩ := entry
  cases value with
  | float value => exact hfloat
  | bool | int | text | null => trivial

end Attributes

namespace Render

theorem vertexFacts?_vertexToJson {vertex : VertexRecord}
    (hwhole : vertex.attributes.FloatsWhole) :
    ((vertexToJson vertex).node Numeral.exactNode).vertexFacts? =
      some (vertex.id, vertex.attributes.shown) := by
  have hread : ((vertexToJson vertex).node Numeral.exactNode).vertexFacts? =
      (vertex.attributes.toJson.node Numeral.exactNode).members?.bind fun attributes =>
        some (vertex.id, Node.coerced attributes) := rfl
  rw [hread, Attributes.members?_toJson, Option.bind_some, Attributes.coerced_members hwhole]

theorem edgeFacts?_edgeToJson {edge : EdgeRecord} (hwhole : edge.attributes.FloatsWhole) :
    ((edgeToJson edge).node Numeral.exactNode).edgeFacts? =
      some (edge.source, edge.target, edge.attributes.shown) := by
  have hread : ((edgeToJson edge).node Numeral.exactNode).edgeFacts? =
      (edge.attributes.toJson.node Numeral.exactNode).members?.bind fun attributes =>
        some (edge.source, edge.target, Node.coerced attributes) := rfl
  rw [hread, Attributes.members?_toJson, Option.bind_some, Attributes.coerced_members hwhole]

theorem floatsWhole_graphToJson {graph : GraphRecord} (hwhole : graph.FloatsWhole) :
    (graphToJson graph).FloatsWhole := by
  have hvertices : (Value.list (graph.vertices.map vertexToJson)).FloatsWhole := by
    rw [Value.FloatsWhole, itemsWhole_iff]
    intro item hitem
    obtain ⟨vertex, hvertex, rfl⟩ := List.mem_map.mp hitem
    exact ⟨trivial, Attributes.floatsWhole_toJson (hwhole.vertices vertex hvertex), trivial⟩
  have hedges : (Value.list (graph.edges.map edgeToJson)).FloatsWhole := by
    rw [Value.FloatsWhole, itemsWhole_iff]
    intro item hitem
    obtain ⟨edge, hedge, rfl⟩ := List.mem_map.mp hitem
    exact ⟨trivial, trivial, Attributes.floatsWhole_toJson (hwhole.edges edge hedge), trivial⟩
  exact ⟨trivial, trivial, hvertices, hedges, trivial⟩

/-- **The JSON document of a graph says what it is to say.** -/
theorem ofJson?_json {graph : GraphRecord} (hwhole : graph.FloatsWhole) :
    Facts.ofJson? (json graph) = some graph.facts := by
  have hvertices : ((graph.vertices.map vertexToJson).map (Value.node Numeral.exactNode)).mapM
      Node.vertexFacts? = some graph.facts.vertices := by
    rw [List.map_map]
    exact mapM_map_eq_some fun vertex hvertex =>
      vertexFacts?_vertexToJson (hwhole.vertices vertex hvertex)
  have hedges : ((graph.edges.map edgeToJson).map (Value.node Numeral.exactNode)).mapM
      Node.edgeFacts? = some graph.facts.edges := by
    rw [List.map_map]
    exact mapM_map_eq_some fun edge hedge => edgeFacts?_edgeToJson (hwhole.edges edge hedge)
  have hread : Facts.ofJson? (json graph) =
      (Value.itemNodes Numeral.exactNode (graph.vertices.map vertexToJson)).toList?.bind
        fun vertices => (vertices.mapM Node.vertexFacts?).bind fun vertices =>
          (Value.itemNodes Numeral.exactNode (graph.edges.map edgeToJson)).toList?.bind
            fun edges => (edges.mapM Node.edgeFacts?).bind fun edges =>
              some { vertices, edges } := by
    rw [Facts.ofJson?, json, Document.ofTextBy_pretty (floatsWhole_graphToJson hwhole)]
    rfl
  simp only [hread, toList?_itemNodes, Option.bind_some, hvertices, hedges]

end Render

end ProgramGraphs
