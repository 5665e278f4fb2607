import ProgramGraphs.Proofs.Class.Weights
import ProgramGraphs.Proofs.Render.Dot
import ProgramGraphs.Proofs.Render.GraphMl
import ProgramGraphs.Proofs.Render.Json
import ProgramGraphs.Render.Document

/-!
# The documents of a graph agree

A JSON, a GraphML and a DOT document of one graph say the same, whatever characters its
ids, captions, keys and texts are made of.  Each format has its own reader, and each
reader finds the facts of the graph, in order; agreement follows through the facts.

Only the doubles have to be restricted, and only for JSON, which lays out a double
differently beyond `10 ^ 16`.  The weights of class graphs are counts, so they are whole
numbers below `2 ^ 53`, and canonical graphs have no doubles.
-/

namespace ProgramGraphs

/-- What a document of a graph says, read by the rules of its format. -/
def Facts.ofDocument? : Format → String → Option Facts
  | .json, text => Facts.ofJson? text
  | .graphMl, text => Facts.ofGraphMl? text
  | .dot, text => Facts.ofDot? text

/-- **The documents of a graph agree**: read by the rules of its format, each says what
the graph is to say.  That covers every class graph of fewer than `2 ^ 53` calls and
every canonical graph. -/
theorem GraphRecord.ofDocument?_render :
    (∀ (graph : GraphRecord) (format : Format), graph.FloatsWhole →
      Facts.ofDocument? format (graph.render format) = some graph.facts) ∧
    (∀ (calls : Nat) (graph : ClassGraph), graph.Built calls → calls < 2 ^ 53 →
      graph.toRecord.FloatsWhole) ∧
    ∀ graph : CanonicalGraph, graph.toRecord.FloatsWhole := by
  refine ⟨fun graph format hwhole => ?_, fun calls graph hbuilt hlt => ?_,
    CanonicalGraph.floatsWhole_toRecord⟩
  · cases format with
    | json => exact Render.ofJson?_json hwhole
    | graphMl => exact Render.GraphMl.ofGraphMl?_graphMl graph
    | dot => exact Render.Dot.ofDot?_dot graph
  · exact hbuilt.floatsWhole_toRecord hlt

/-- A graph with texts that mean something in each of the formats: markup, quotes,
escapes, keywords, numerals and nothing at all. -/
def GraphRecord.awkward : GraphRecord where
  vertices :=
    [{ id := "a\"<b>\\", caption := "</node>"
       attributes := ⟨[("k&amp;", .text "]; x\n\"</data>\""), ("label", .int (-1)),
        ("", .null), ("1.50", .bool false)]⟩ },
     { id := "", caption := "-7", attributes := ⟨[]⟩ },
     { id := "DiGraph", caption := "", attributes := ⟨[("edge", .text "ü\r\\\\")]⟩ }]
  edges :=
    [{ source := "a\"<b>\\", target := "", attributes := ⟨[("weight", .float (3 : Float))]⟩ },
     { source := "->", target := "DiGraph", attributes := ⟨[("zero", .float (-0.0))]⟩ }]

theorem GraphRecord.ofDocument?_awkward :
    GraphRecord.awkward.FloatsWhole ∧
      (∀ format, Facts.ofDocument? format (GraphRecord.awkward.render format) =
        some GraphRecord.awkward.facts) ∧
      (ClassGraph.empty.recordCall default { (default : ClassVertex) with className := "LNode" }
        "run" "visit").toRecord.FloatsWhole := by
  have hwhole : GraphRecord.awkward.FloatsWhole := by
    have hthree : Decimal.IsWhole 3 := .ofNat (by decide : 3 < 2 ^ 53)
    constructor <;>
      simp only [GraphRecord.awkward, Attributes.FloatsWhole, Attribute.FloatWhole,
        List.forall_mem_cons, List.not_mem_nil, false_implies, implies_true, and_true]
    exact ⟨hthree, .negativeZero⟩
  have hbuilt : (ClassGraph.empty.recordCall default
      { (default : ClassVertex) with className := "LNode" } "run" "visit").Built 1 :=
    .recordCall .empty _ _ "run" "visit"
  exact ⟨hwhole, fun format => GraphRecord.ofDocument?_render.1 _ format hwhole,
    GraphRecord.ofDocument?_render.2.1 1 _ hbuilt (by decide)⟩

end ProgramGraphs
