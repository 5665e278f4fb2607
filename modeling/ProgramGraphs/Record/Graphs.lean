import ProgramGraphs.Canonical.Graph
import ProgramGraphs.Class.Graph
import ProgramGraphs.Record.Basic

/-!
# The records of class graphs and of canonical graphs
-/

namespace ProgramGraphs

namespace ClassVertex

/-- The record of a class: its qualified name and its counts. -/
def toRecord (vertex : ClassVertex) : VertexRecord :=
  { id := vertex.className
    caption := vertex.shortName
    attributes := Attributes.ofList
      [("class_name", .text vertex.className),
       ("is_class_private", .bool vertex.isPrivate),
       ("num_total_fields", .ofCount vertex.totalFields),
       ("num_static_fields", .ofCount vertex.staticFields),
       ("num_instance_fields", .ofCount vertex.instanceFields),
       ("num_total_methods", .ofCount vertex.totalMethods),
       ("num_static_methods", .ofCount vertex.staticMethods)] }

end ClassVertex

namespace ClassGraph

/-- The records of a class graph. -/
def toRecord (graph : ClassGraph) : GraphRecord :=
  { vertices := graph.vertices.toList.map (·.toRecord)
    edges := graph.edges.map fun (source, target, call) =>
      { source := source.className
        target := target.className
        attributes := Attributes.ofList
          [("weight", .float call.weight),
           ("source_method", .text call.sourceMethod),
           ("target_method", .text call.targetMethod)] } }

end ClassGraph

namespace CanonicalVertex

/-- The record of a statement: its class, method and source line. -/
def toRecord (vertex : CanonicalVertex) : VertexRecord :=
  { id := toString vertex.id
    caption := s!"{vertex.method}:{vertex.position.render}"
    attributes := Attributes.ofList
      [("class", .text vertex.className),
       ("method", .text vertex.method),
       ("position", .int (Int64.ofInt vertex.position.toInt))] }

end CanonicalVertex

namespace CanonicalEdge

/-- The record of a dependence. -/
def toRecord (edge : CanonicalEdge) : EdgeRecord :=
  { source := toString edge.source
    target := toString edge.target
    attributes := Attributes.ofList
      [("type", .ofOption edge.edgeType),
       ("between", .text edge.between),
       ("context", .ofOption edge.context)] }

end CanonicalEdge

namespace CanonicalGraph

/-- The records of a canonical graph. -/
def toRecord (graph : CanonicalGraph) : GraphRecord :=
  { vertices := graph.vertices.map (·.toRecord)
    edges := graph.edges.map (·.toRecord) }

end CanonicalGraph

end ProgramGraphs
