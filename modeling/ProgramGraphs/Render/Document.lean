import ProgramGraphs.Render.Dot
import ProgramGraphs.Render.Format
import ProgramGraphs.Render.GraphMl
import ProgramGraphs.Render.Json

/-!
# Documents of graphs in every format
-/

namespace ProgramGraphs

/-- The document of a graph in a format. -/
def GraphRecord.render (graph : GraphRecord) : Format → String
  | .json => Render.json graph
  | .graphMl => Render.graphMl graph
  | .dot => Render.dot graph

end ProgramGraphs
