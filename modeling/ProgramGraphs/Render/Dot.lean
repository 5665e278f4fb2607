import ProgramGraphs.Record.Basic

/-!
# DOT documents of graphs

A DOT document has one statement for each vertex and each edge.  An id is written bare
when it is an identifier or a numeral and no keyword; otherwise it is quoted, with a
backslash before each quote and backslash.  Attribute values are always quoted, and
missing ones are left out.
-/

namespace ProgramGraphs.Render.Dot

/-! ## Ids -/

/-- A letter of the ASCII alphabet, or an underscore. -/
def startsIdentifier (c : Char) : Bool := c.isAlpha || c == '_'

/-- A character that an identifier may go on with. -/
def continuesIdentifier (c : Char) : Bool := c.isAlphanum || c == '_'

/-- Whether a text is an identifier. -/
def isIdentifier : List Char → Bool
  | [] => false
  | c :: rest => startsIdentifier c && rest.all continuesIdentifier

/-- Whether a text is a row of digits. -/
def isDigits (text : List Char) : Bool := text != [] && text.all Char.isDigit

/-- Whether a text is a whole number, which may have a minus sign. -/
def isNumeral : List Char → Bool
  | '-' :: rest => isDigits rest
  | text => isDigits text

/-- The words that are no ids, in lower case. -/
def keywords : List String := ["node", "edge", "graph", "digraph", "subgraph", "strict"]

/-- Whether a text is a keyword in some letter case. -/
def isKeyword (text : List Char) : Bool :=
  keywords.any fun keyword => text.map Char.toLower == keyword.toList

/-- Whether a text may stand for itself as an id. -/
def isPlain (text : List Char) : Bool :=
  (isIdentifier text || isNumeral text) && !isKeyword text

/-- A character inside quotes. -/
def escape (c : Char) : List Char :=
  if c = '\\' then ['\\', '\\'] else if c = '"' then ['\\', '"'] else [c]

/-- A text between quotes. -/
def quoted (text : String) : List Char := '"' :: text.toList.flatMap escape ++ ['"']

/-- A text as an id. -/
def idText (text : String) : List Char := if isPlain text.toList then text.toList else quoted text

/-! ## Statements -/

/-- A name with its value. -/
def assignment (entry : String × String) : List Char := idText entry.1 ++ '=' :: quoted entry.2

/-- Pieces with a comma and a blank between them. -/
def commaSeparated : List (List Char) → List Char
  | [] => []
  | [piece] => piece
  | piece :: rest => piece ++ ", ".toList ++ commaSeparated rest

/-- Assignments between brackets, after a blank; nothing when there are none. -/
def attributeList (entries : List (String × String)) : List Char :=
  if entries.isEmpty then []
  else " [".toList ++ commaSeparated (entries.map assignment) ++ "]".toList

/-- The statement of a vertex, whose first attribute is its caption. -/
def vertexStatement (vertex : VertexRecord) : List Char :=
  "  ".toList ++ idText vertex.id ++
    attributeList (("label", vertex.caption) :: vertex.attributes.shown) ++ ";\n".toList

/-- The statement of an edge. -/
def edgeStatement (edge : EdgeRecord) : List Char :=
  "  ".toList ++ idText edge.source ++ " -> ".toList ++ idText edge.target ++
    attributeList edge.attributes.shown ++ ";\n".toList

/-- The characters of the document of a graph. -/
def document (graph : GraphRecord) : List Char :=
  "digraph G \x7b\n".toList ++ graph.vertices.flatMap vertexStatement ++
    graph.edges.flatMap edgeStatement ++ "\x7d\n".toList

end Dot

/-- The DOT document of a graph. -/
def dot (graph : GraphRecord) : String := String.ofList (Dot.document graph)

end ProgramGraphs.Render
