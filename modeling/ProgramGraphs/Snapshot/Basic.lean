import ProgramGraphs.Statement

/-!
# Snapshots of an analysis

A snapshot records one run of an analysis: the classes and methods it met, its call
graph, and, where it made one, its dependency graph.  Parts refer to each other by their
places in the lists of the snapshot.  Nothing here says that those places exist;
`ProgramGraphs.Snapshot.References` checks it.
-/

namespace ProgramGraphs.Snapshot

/-- The place of an element in one of a snapshot's lists. -/
abbrev Index := UInt64

/-- A method of the analysed program. -/
structure Method where
  name : String
  /-- The class that declares the method. -/
  declaringClass : Index
  deriving DecidableEq, Repr, Inhabited

/-- A call in the body of a method. -/
structure CallSite where
  /-- Where the call stands in the method's code. -/
  offset : UInt32 := 0
  /-- The nodes that may be called. -/
  targets : List Index := []
  deriving DecidableEq, Repr, Inhabited

/-- A node of the call graph: a method in some calling context. -/
structure CallNode where
  method : Index
  callSites : List CallSite := []
  deriving DecidableEq, Repr, Inhabited

/-- The call graph of a snapshot. -/
structure CallSection where
  nodes : List CallNode := []
  entryPoints : List Index := []
  deriving DecidableEq, Repr, Inhabited

/-- A statement of the dependency graph. -/
structure Statement where
  /-- The call graph node that the statement belongs to. -/
  node : Index
  kind : StatementKind
  /-- The source line, where it is known. -/
  line : Option UInt32 := none
  deriving DecidableEq, Repr, Inhabited

/-- An edge of the dependency graph. -/
structure Edge where
  source : Index
  target : Index
  /-- The kind of dependence. -/
  dependence : Option String := none
  /-- The calling context. -/
  context : Option String := none
  deriving DecidableEq, Repr, Inhabited

/-- The dependency graph of a snapshot. -/
structure DependencySection where
  statements : List Statement := []
  edges : List Edge := []
  /-- The statements that searches start from, where they are given. -/
  entries : Option (List Index) := none
  deriving DecidableEq, Repr, Inhabited

end ProgramGraphs.Snapshot

namespace ProgramGraphs

/-- A record of one run of an analysis. -/
structure Snapshot where
  version : String := "1"
  classes : List ClassInfo := []
  methods : List Snapshot.Method := []
  callGraph : Snapshot.CallSection := {}
  dependencyGraph : Option Snapshot.DependencySection := none
  deriving DecidableEq, Repr, Inhabited

end ProgramGraphs
