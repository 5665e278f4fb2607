import ProgramGraphs.Statement

/-!
# Dependency graphs

A dependency graph relates the statements of a program.  Its statements may be of any
type: what the graph says about them is given by functions.  An edge may carry a
dependence kind and a calling context, and a labeler decides what text an exported edge
shows.
-/

namespace ProgramGraphs

/-- A dependency graph over statements of type `S`. -/
structure DependencyGraph (S : Type) where
  /-- All statements. -/
  statements : List S
  /-- The statements that depend on a statement, in order. -/
  successors : S → List S
  /-- The statements that searches start from, in order. -/
  entries : List S
  info : S → StatementInfo
  /-- The kind of the dependence between two statements, where one is recorded. -/
  dependence : S → S → Option String
  /-- The calling context of an edge, where one is recorded. -/
  context : S → S → Option String

/-- The text that an edge between two statements shows, if any. -/
abbrev Labeler (S : Type) := S → S → Option String

/-- The built-in ways to label edges. -/
inductive LabelStrategy where
  /-- By the recorded kind of dependence. -/
  | dependence
  /-- By the feature of the source statement, and by the recorded kind where the source
  has no feature. -/
  | feature
  deriving DecidableEq, Repr, Inhabited

namespace DependencyGraph

variable {S : Type}

/-- The feature of a statement. -/
def feature? (graph : DependencyGraph S) (statement : S) : Option String :=
  let info := graph.info statement
  info.kind.feature? info.method

/-- The labels that a strategy gives to the edges of a graph. -/
def labeler (graph : DependencyGraph S) : LabelStrategy → Labeler S
  | .dependence => graph.dependence
  | .feature => fun source target =>
    (graph.feature? source).orElse fun _ => graph.dependence source target

end DependencyGraph

end ProgramGraphs
