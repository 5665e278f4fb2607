import ProgramGraphs.Class.Json
import ProgramGraphs.Snapshot.Basic
import ProgramGraphs.Statement.Json

/-!
# Snapshots as JSON

Every section of a snapshot may be left out.  A statement is one object that holds the
members of its kind beside its own; its members other than its node and its position are
read as a whole before the kind is looked at.
-/

namespace ProgramGraphs.Snapshot

open Json (Decoder Value Members Node ReadError)
open Json.Record (Field Fields)

/-- A list of places as a JSON list. -/
def indicesToJson (indices : List Index) : Value := .list (indices.map Value.word)

/-- A member that is left out when its value is missing. -/
def optionalMember {α : Type} (key : String) (encode : α → Value) :
    Option α → List (String × Value)
  | some value => [(key, encode value)]
  | none => []

namespace Method

/-- A method as a JSON object. -/
def toJson (method : Method) : Value :=
  .object [("name", .string method.name), ("class", .word method.declaringClass)]

/-- Reads a method. -/
def decoder : Decoder Method :=
  Json.Record.decode "struct MethodEntry"
    (.cons (.required "name" Json.Decode.string) <|
      .cons (.required "class" Json.Decode.word64) .nil)
    fun (name, declaringClass, ()) => { name, declaringClass }

end Method

namespace CallSite

/-- A call site as a JSON object. -/
def toJson (site : CallSite) : Value :=
  .object [("pc", .natural site.offset.toNat), ("targets", indicesToJson site.targets)]

/-- Reads a call site. -/
def decoder : Decoder CallSite :=
  Json.Record.decode "struct CallSiteEntry"
    (.cons (.withDefault "pc" Json.Decode.word32 0) <|
      .cons (.withDefault "targets" (Json.Decode.list Json.Decode.word64) []) .nil)
    fun (offset, targets, ()) => { offset, targets }

end CallSite

namespace CallNode

/-- A call graph node as a JSON object. -/
def toJson (node : CallNode) : Value :=
  .object [("method", .word node.method),
    ("call_sites", .list (node.callSites.map CallSite.toJson))]

/-- Reads a call graph node. -/
def decoder : Decoder CallNode :=
  Json.Record.decode "struct CgNodeEntry"
    (.cons (.required "method" Json.Decode.word64) <|
      .cons (.withDefault "call_sites" (Json.Decode.list CallSite.decoder) []) .nil)
    fun (method, callSites, ()) => { method, callSites }

end CallNode

namespace CallSection

/-- A call graph as a JSON object. -/
def toJson (callGraph : CallSection) : Value :=
  .object [("nodes", .list (callGraph.nodes.map CallNode.toJson)),
    ("entry_points", indicesToJson callGraph.entryPoints)]

/-- Reads a call graph. -/
def decoder : Decoder CallSection :=
  Json.Record.decode "struct CallGraphSection"
    (.cons (.withDefault "nodes" (Json.Decode.list CallNode.decoder) []) <|
      .cons (.withDefault "entry_points" (Json.Decode.list Json.Decode.word64) []) .nil)
    fun (nodes, entryPoints, ()) => { nodes, entryPoints }

end CallSection

namespace Statement

/-- A statement as a JSON object. -/
def toJson (statement : Statement) : Value :=
  .object (("node", .word statement.node) :: statement.kind.toMembers ++
    optionalMember "position" (fun line => .natural line.toNat) statement.line)

/-- Reads a source line.  A negative one is unknown. -/
def lineDecoder : Decoder (Option UInt32) := fun node => do
  match ← Json.Decode.optional Json.Decode.integer64 node with
  | none => return none
  | some line =>
    if line < 0 then return none
    else if line < 0x100000000 then return some (UInt32.ofNat line.toNat)
    else .error (.mismatch (.positionOutOfRange line))

/-- The own members of a statement, and those that are left for its kind. -/
structure Parts where
  node : Option Index := none
  line : Option (Option UInt32) := none
  /-- The other members, the last one first. -/
  others : List (Option String × Node) := []

/-- Takes one member of a statement. -/
def Parts.add (opened : Nat) (parts : Parts) (key : String) (value : Node) :
    Except ReadError Parts :=
  if key = "node" then
    match parts.node with
    | some _ => .error (.mismatch (.duplicateField "node"))
    | none => (fun node => { parts with node := some node }) <$> Json.Decode.word64 value
  else if key = "position" then
    match parts.line with
    | some _ => .error (.mismatch (.duplicateField "position"))
    | none => (fun line => { parts with line := some line }) <$> lineDecoder value
  else
    match value.check opened with
    | .ok () => .ok { parts with others := (some key, value) :: parts.others }
    | .error defect => .error (.defect defect)

/-- Takes all members of a statement, in order. -/
def Parts.addAll (opened : Nat) (parts : Parts) : Members → Except ReadError Parts
  | .close => .ok parts
  | .stopped stop => .error (.defect stop.read)
  | .keyless found => .error (.defect found.keyDefect)
  | .member none _ _ => .error (.defect .malformed)
  | .member (some key) value rest =>
    match parts.add opened key value with
    | .ok parts => parts.addAll opened rest
    | .error error => .error error

/-- The statement that its members make up. -/
def Parts.finish (parts : Parts) : Except ReadError Statement :=
  match parts.node with
  | none => .error (.mismatch (.missingField "node"))
  | some node => do
    let kind ← StatementKind.alternative.ofMembers .nameOrPlace 0
      (Members.close.prepend parts.others)
    return { node, kind, line := parts.line.getD none }

/-- Reads a statement, with the given number of lists and objects open around it. -/
def decoder (opened : Nat) : Decoder Statement
  | .object members => do
    let parts ← Parts.addAll (opened + 1) {} members
    parts.finish
  | node => Json.Decode.wrongType "struct StatementEntry" node

end Statement

namespace Edge

/-- An edge as a JSON object. -/
def toJson (edge : Edge) : Value :=
  .object ([("from", .word edge.source), ("to", .word edge.target)] ++
    optionalMember "label" .string edge.dependence ++ optionalMember "context" .string edge.context)

/-- Reads an edge. -/
def decoder : Decoder Edge :=
  Json.Record.decode "struct DependencyEdgeEntry"
    (.cons (.required "from" Json.Decode.word64) <|
      .cons (.required "to" Json.Decode.word64) <|
      .cons (.withDefault "label" (Json.Decode.optional Json.Decode.string) none) <|
      .cons (.withDefault "context" (Json.Decode.optional Json.Decode.string) none) .nil)
    fun (source, target, dependence, context, ()) => { source, target, dependence, context }

end Edge

namespace DependencySection

/-- A dependency graph as a JSON object. -/
def toJson (graph : DependencySection) : Value :=
  .object ([("statements", .list (graph.statements.map Statement.toJson)),
    ("edges", .list (graph.edges.map Edge.toJson))] ++
      optionalMember "entries" indicesToJson graph.entries)

/-- Reads a dependency graph, which stands one level below the snapshot; its statements
stand two levels further down. -/
def decoder : Decoder DependencySection :=
  Json.Record.decode "struct DependencyGraphSection"
    (.cons (.withDefault "statements" (Json.Decode.list (Statement.decoder 3)) []) <|
      .cons (.withDefault "edges" (Json.Decode.list Edge.decoder) []) <|
      .cons (.withDefault "entries"
        (Json.Decode.optional (Json.Decode.list Json.Decode.word64)) none) .nil)
    fun (statements, edges, entries, ()) => { statements, edges, entries }

end DependencySection

/-- A snapshot as a JSON object. -/
def toJson (snapshot : Snapshot) : Value :=
  .object ([("version", .string snapshot.version),
    ("classes", .list (snapshot.classes.map ClassInfo.toJson)),
    ("methods", .list (snapshot.methods.map Method.toJson)),
    ("call_graph", snapshot.callGraph.toJson)] ++
      optionalMember "dependency_graph" DependencySection.toJson snapshot.dependencyGraph)

/-- Reads a snapshot. -/
def decoder : Decoder Snapshot :=
  Json.Record.decode "struct AnalysisSnapshot"
    (.cons (.withDefault "version" Json.Decode.string "1") <|
      .cons (.withDefault "classes" (Json.Decode.list ClassInfo.decoder) []) <|
      .cons (.withDefault "methods" (Json.Decode.list Method.decoder) []) <|
      .cons (.withDefault "call_graph" CallSection.decoder {}) <|
      .cons (.withDefault "dependency_graph"
        (Json.Decode.optional DependencySection.decoder) none) .nil)
    fun (version, classes, methods, callGraph, dependencyGraph, ()) =>
      { version, classes, methods, callGraph, dependencyGraph }

end ProgramGraphs.Snapshot
