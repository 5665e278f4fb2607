import ProgramGraphs.Record.Basic

/-!
# JSON documents of graphs

A document lists the vertices with their ids and the edges with the ids of their ends.
Missing attributes are written as `null`.
-/

namespace ProgramGraphs.Render

/-- A vertex as a JSON object. -/
def vertexToJson (vertex : VertexRecord) : Json.Value :=
  .object [("id", .string vertex.id), ("attributes", vertex.attributes.toJson)]

/-- An edge as a JSON object. -/
def edgeToJson (edge : EdgeRecord) : Json.Value :=
  .object [("source", .string edge.source), ("target", .string edge.target),
    ("attributes", edge.attributes.toJson)]

/-- A graph as a JSON object. -/
def graphToJson (graph : GraphRecord) : Json.Value :=
  .object [("version", .string "1"), ("directed", .bool true),
    ("nodes", .list (graph.vertices.map vertexToJson)),
    ("edges", .list (graph.edges.map edgeToJson))]

/-- The JSON document of a graph. -/
def json (graph : GraphRecord) : String := (graphToJson graph).pretty

end ProgramGraphs.Render
