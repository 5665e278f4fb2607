import ProgramGraphs.Class.Graph
import ProgramGraphs.Json.Record

/-!
# Classes and their graph as JSON
-/

namespace ProgramGraphs

open Json (Decoder Value)
open Json.Record (Field Fields)

/-- A word as a JSON value. -/
def Json.Value.word (word : UInt64) : Value := .natural word.toNat

namespace DeclaredMethod

/-- A declared method as a JSON object. -/
def toJson (method : DeclaredMethod) : Value :=
  .object [("name", .string method.name), ("is_static", .bool method.isStatic)]

/-- Reads a declared method; what is missing takes its default. -/
def decoder : Decoder DeclaredMethod :=
  Json.Record.decode "struct DeclaredMethod"
    (.cons (.withDefault "name" Json.Decode.string "") <|
      .cons (.withDefault "is_static" Json.Decode.bool false) .nil)
    fun (name, isStatic, ()) => { name, isStatic }

end DeclaredMethod

namespace ClassInfo

/-- A class as a JSON object. -/
def toJson (info : ClassInfo) : Value :=
  .object
    [("name", .string info.name), ("loader", .string info.loader),
     ("is_private", .bool info.isPrivate), ("total_fields", .word info.totalFields),
     ("static_fields", .word info.staticFields), ("instance_fields", .word info.instanceFields),
     ("methods", .list (info.methods.map DeclaredMethod.toJson))]

/-- Reads a class; what is missing takes its default. -/
def decoder : Decoder ClassInfo :=
  Json.Record.decode "struct ClassInfo"
    (.cons (.withDefault "name" Json.Decode.string "") <|
      .cons (.withDefault "loader" Json.Decode.string "") <|
      .cons (.withDefault "is_private" Json.Decode.bool false) <|
      .cons (.withDefault "total_fields" Json.Decode.word64 0) <|
      .cons (.withDefault "static_fields" Json.Decode.word64 0) <|
      .cons (.withDefault "instance_fields" Json.Decode.word64 0) <|
      .cons (.withDefault "methods" (Json.Decode.list DeclaredMethod.decoder) []) .nil)
    fun (name, loader, isPrivate, totalFields, staticFields, instanceFields, methods, ()) =>
      { name, loader, isPrivate, totalFields, staticFields, instanceFields, methods }

end ClassInfo

namespace ClassVertex

/-- A vertex as a JSON object. -/
def toJson (vertex : ClassVertex) : Value :=
  .object
    [("class_name", .string vertex.className), ("short_name", .string vertex.shortName),
     ("is_private", .bool vertex.isPrivate), ("num_total_fields", .word vertex.totalFields),
     ("num_static_fields", .word vertex.staticFields),
     ("num_instance_fields", .word vertex.instanceFields),
     ("num_total_methods", .word vertex.totalMethods),
     ("num_static_methods", .word vertex.staticMethods)]

/-- Reads a vertex, all of whose fields must be given. -/
def decoder : Decoder ClassVertex :=
  Json.Record.decode "struct ClassVertex"
    (.cons (.required "class_name" Json.Decode.string) <|
      .cons (.required "short_name" Json.Decode.string) <|
      .cons (.required "is_private" Json.Decode.bool) <|
      .cons (.required "num_total_fields" Json.Decode.word64) <|
      .cons (.required "num_static_fields" Json.Decode.word64) <|
      .cons (.required "num_instance_fields" Json.Decode.word64) <|
      .cons (.required "num_total_methods" Json.Decode.word64) <|
      .cons (.required "num_static_methods" Json.Decode.word64) .nil)
    fun (className, shortName, isPrivate, totalFields, staticFields, instanceFields, totalMethods,
        staticMethods, ()) =>
      { className, shortName, isPrivate, totalFields, staticFields, instanceFields, totalMethods,
        staticMethods }

end ClassVertex

namespace CallEdge

/-- An edge as a JSON object. -/
def toJson (edge : CallEdge) : Value :=
  .object [("source_method", .string edge.sourceMethod),
    ("target_method", .string edge.targetMethod), ("weight", .float edge.weight)]

/-- Reads an edge, all of whose fields must be given. -/
def decoder : Decoder CallEdge :=
  Json.Record.decode "struct CallEdge"
    (.cons (.required "source_method" Json.Decode.string) <|
      .cons (.required "target_method" Json.Decode.string) <|
      .cons (.required "weight" Json.Decode.float) .nil)
    fun (sourceMethod, targetMethod, weight, ()) => { sourceMethod, targetMethod, weight }

end CallEdge

namespace ClassGraphStats

/-- The size of a class graph as a JSON object. -/
def toJson (stats : ClassGraphStats) : Value :=
  .object [("classes", .natural stats.classes), ("edges", .natural stats.edges),
    ("call_sites", .natural stats.callSites)]

/-- Reads the size of a class graph. -/
def decoder : Decoder ClassGraphStats :=
  Json.Record.decode "struct ClassGraphStats"
    (.cons (.required "classes" Json.Decode.natural) <|
      .cons (.required "edges" Json.Decode.natural) <|
      .cons (.required "call_sites" Json.Decode.natural) .nil)
    fun (classes, edges, callSites, ()) => { classes, edges, callSites }

end ClassGraphStats

end ProgramGraphs
