import ProgramGraphs.Canonical.Build
import ProgramGraphs.Json.Variant

/-!
# Canonical graphs as JSON
-/

namespace ProgramGraphs

open Json (Decoder Value)
open Json.Record (Field Fields)
open Json.Variant (Plain)

namespace Position

/-- A position as a JSON value: a word for an unknown one, and an object for a line. -/
def toJson : Position → Value
  | .line number => .object [("Line", .natural number.toNat)]
  | .unknown => .string "Unknown"

/-- Reads a position. -/
def decoder : Decoder Position :=
  Json.Variant.plain
    [Plain.withContent "Line" Position.line Json.Decode.word32,
      Plain.unit "Unknown" Position.unknown]

end Position

namespace CanonicalVertex

/-- A vertex as a JSON object. -/
def toJson (vertex : CanonicalVertex) : Value :=
  .object [("id", .natural vertex.id), ("position", vertex.position.toJson),
    ("method", .string vertex.method), ("class", .string vertex.className)]

/-- Reads a vertex. -/
def decoder : Decoder CanonicalVertex :=
  Json.Record.decode "struct CanonVertex"
    (.cons (.required "id" Json.Decode.natural) <|
      .cons (.required "position" Position.decoder) <|
      .cons (.required "method" Json.Decode.string) <|
      .cons (.required "class" Json.Decode.string) .nil)
    fun (id, position, method, className, ()) => { id, position, method, className }

end CanonicalVertex

namespace CanonicalEdge

/-- An edge as a JSON object. -/
def toJson (edge : CanonicalEdge) : Value :=
  .object [("between", .list [.natural edge.source, .natural edge.target]),
    ("edge_type", .optionalString edge.edgeType), ("context", .optionalString edge.context)]

/-- Reads an edge. -/
def decoder : Decoder CanonicalEdge :=
  Json.Record.decode "struct CanonEdge"
    (.cons (.required "between" (Json.Decode.pair Json.Decode.natural)) <|
      .cons (.nullable "edge_type" Json.Decode.string) <|
      .cons (.nullable "context" Json.Decode.string) .nil)
    fun (between, edgeType, context, ()) =>
      { source := between.1, target := between.2, edgeType, context }

end CanonicalEdge

namespace CanonicalStats

/-- Counts as a JSON object. -/
def toJson (stats : CanonicalStats) : Value :=
  .object
    [("statements", .natural stats.statements),
     ("application_statements", .natural stats.applicationStatements),
     ("reached", .natural stats.reached), ("kept_edges", .natural stats.keptEdges),
     ("back_edges", .natural stats.backEdges)]

/-- Reads counts. -/
def decoder : Decoder CanonicalStats :=
  Json.Record.decode "struct CanonStats"
    (.cons (.required "statements" Json.Decode.natural) <|
      .cons (.required "application_statements" Json.Decode.natural) <|
      .cons (.required "reached" Json.Decode.natural) <|
      .cons (.required "kept_edges" Json.Decode.natural) <|
      .cons (.required "back_edges" Json.Decode.natural) .nil)
    fun (statements, applicationStatements, reached, keptEdges, backEdges, ()) =>
      { statements, applicationStatements, reached, keptEdges, backEdges }

end CanonicalStats

namespace CanonicalGraph

/-- A graph as a JSON object. -/
def toJson (graph : CanonicalGraph) : Value :=
  .object [("vertices", .list (graph.vertices.map CanonicalVertex.toJson)),
    ("edges", .list (graph.edges.map CanonicalEdge.toJson)), ("stats", graph.stats.toJson)]

/-- Reads a graph. -/
def decoder : Decoder CanonicalGraph :=
  Json.Record.decode "struct CanonGraph"
    (.cons (.required "vertices" (Json.Decode.list CanonicalVertex.decoder)) <|
      .cons (.required "edges" (Json.Decode.list CanonicalEdge.decoder)) <|
      .cons (.required "stats" CanonicalStats.decoder) .nil)
    fun (vertices, edges, stats, ()) => { vertices, edges, stats }

end CanonicalGraph

end ProgramGraphs
