import ProgramGraphs.Record.Basic

/-!
# GraphML documents of graphs

A GraphML document declares the attributes of vertices and of edges, each with a type,
before it lists the graph.  An attribute is declared once, where it first occurs; its
type is that of its first value that is neither missing nor a text, and text when there
is no such value.  Missing values are left out of the graph.

Texts are written with entities for the characters that would end them.
-/

namespace ProgramGraphs.Render.GraphMl

/-! ## Entities -/

/-- A character of a text between tags. -/
def escapeText (c : Char) : List Char :=
  if c = '&' then "&amp;".toList
  else if c = '<' then "&lt;".toList
  else if c = '>' then "&gt;".toList
  else [c]

/-- A character of a text between double quotes. -/
def escapeQuoted (c : Char) : List Char :=
  if c = '"' then "&quot;".toList else escapeText c

/-- A text between tags. -/
def text (content : String) : List Char := content.toList.flatMap escapeText

/-- A text between double quotes, with the quotes. -/
def quoted (content : List Char) : List Char := '"' :: content ++ ['"']

/-- The escaped form of a text that stands between double quotes. -/
def inner (content : String) : List Char := content.toList.flatMap escapeQuoted

/-! ## Declarations -/

/-- A declared attribute. -/
structure Key where
  name : String
  type : AttributeType
  deriving DecidableEq, Repr

/-- Takes note of one value of an attribute: a new name is declared, and a type that is
still text gives way to the type of a value that is not missing. -/
def observe (name : String) (value : Attribute) : List Key → List Key
  | [] => [⟨name, value.type⟩]
  | key :: rest =>
    if key.name = name then
      if key.type = .string ∧ ¬ value.isNull then { key with type := value.type } :: rest
      else key :: rest
    else key :: observe name value rest

/-- The declarations for a sequence of attribute maps. -/
def collectKeys (maps : List Attributes) : List Key :=
  (maps.flatMap (·.toList)).foldl (fun keys entry => observe entry.1 entry.2 keys) []

/-! ## The document -/

/-- Which elements an attribute belongs to. -/
inductive Domain where
  | node
  | edge
  deriving DecidableEq, Repr

/-- The element name of a domain. -/
def Domain.element : Domain → String
  | .node => "node"
  | .edge => "edge"

/-- The text before the name of a key in its id, which keeps vertex keys and edge keys
apart. -/
def Domain.mark : Domain → String
  | .node => "v_"
  | .edge => "e_"

/-- The quoted id of a key. -/
def keyId (domain : Domain) (name : String) : List Char :=
  quoted (domain.mark.toList ++ inner name)

/-- The line that declares a key. -/
def declaration (domain : Domain) (key : Key) : List Char :=
  "  <key id=".toList ++ keyId domain key.name ++
    " for=".toList ++ quoted domain.element.toList ++
    " attr.name=".toList ++ quoted (inner key.name) ++
    " attr.type=".toList ++ quoted key.type.name.toList ++ "/>\n".toList

/-- The line that gives an element a value for a key. -/
def dataLine (domain : Domain) (entry : String × String) : List Char :=
  "      <data key=".toList ++ keyId domain entry.1 ++ ">".toList ++ text entry.2 ++
    "</data>\n".toList

/-- The lines of an attribute map. -/
def dataLines (domain : Domain) (attributes : Attributes) : List Char :=
  attributes.shown.flatMap (dataLine domain)

/-- The lines of a vertex. -/
def vertexLines (vertex : VertexRecord) : List Char :=
  "    <node id=".toList ++ quoted (inner vertex.id) ++ ">\n".toList ++
    dataLines .node vertex.attributes ++ "    </node>\n".toList

/-- The lines of the edge with a given number. -/
def edgeLines (edge : EdgeRecord) (number : Nat) : List Char :=
  "    <edge id=".toList ++ quoted ('e' :: Nat.toDigits 10 number) ++
    " source=".toList ++ quoted (inner edge.source) ++
    " target=".toList ++ quoted (inner edge.target) ++ ">\n".toList ++
    dataLines .edge edge.attributes ++ "    </edge>\n".toList

/-- What stands before the declarations. -/
def header : String :=
  "<?xml version=\"1.0\" encoding=\"UTF-8\"?>\n" ++
    "<graphml xmlns=\"http://graphml.graphdrawing.org/xmlns\" " ++
    "xmlns:xsi=\"http://www.w3.org/2001/XMLSchema-instance\" " ++
    "xsi:schemaLocation=\"http://graphml.graphdrawing.org/xmlns " ++
    "http://graphml.graphdrawing.org/xmlns/1.0/graphml.xsd\">\n"

/-- The characters of the document of a graph. -/
def document (graph : GraphRecord) : List Char :=
  header.toList ++
    (collectKeys (graph.vertices.map (·.attributes))).flatMap (declaration .node) ++
    (collectKeys (graph.edges.map (·.attributes))).flatMap (declaration .edge) ++
    "  <graph id=\"G\" edgedefault=\"directed\">\n".toList ++
    graph.vertices.flatMap vertexLines ++
    graph.edges.zipIdx.flatMap (fun (edge, number) => edgeLines edge number) ++
    "  </graph>\n</graphml>\n".toList

end GraphMl

/-- The GraphML document of a graph. -/
def graphMl (graph : GraphRecord) : String := String.ofList (GraphMl.document graph)

end ProgramGraphs.Render
