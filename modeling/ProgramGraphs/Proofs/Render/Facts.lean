import ProgramGraphs.Record.Basic
import ProgramGraphs.Proofs.Decimal.Text

/-!
# What documents of a graph say

All documents of a graph are to say the same: which vertices and edges there are, in
which order, and which attributes each has that are not missing, with their texts.
Documents agree on the text of a double only where it is a whole number, since beyond
`10 ^ 16` they lay numbers out differently.
-/

namespace ProgramGraphs

/-- What a document says: ids with attributes, and pairs of ids with attributes. -/
structure Facts where
  vertices : List (String × List (String × String))
  edges : List (String × String × List (String × String))
  deriving DecidableEq, Repr

/-- What the documents of a graph are to say. -/
def GraphRecord.facts (graph : GraphRecord) : Facts where
  vertices := graph.vertices.map fun vertex => (vertex.id, vertex.attributes.shown)
  edges := graph.edges.map fun edge => (edge.source, edge.target, edge.attributes.shown)

/-- Whether an attribute, if it is a double, is a whole number. -/
def Attribute.FloatWhole : Attribute → Prop
  | .float value => Decimal.IsWhole value
  | _ => True

/-- Whether all doubles in an attribute map are whole numbers. -/
def Attributes.FloatsWhole (attributes : Attributes) : Prop :=
  ∀ entry ∈ attributes.toList, entry.2.FloatWhole

/-- A graph whose doubles are all whole numbers below `2 ^ 53`. -/
structure GraphRecord.FloatsWhole (graph : GraphRecord) : Prop where
  vertices : ∀ vertex ∈ graph.vertices, vertex.attributes.FloatsWhole
  edges : ∀ edge ∈ graph.edges, edge.attributes.FloatsWhole

end ProgramGraphs
