import ProgramGraphs.Canonical.Build
import ProgramGraphs.Render.Format

/-!
# Configurations

A configuration says how exported files are named and in which format they are written,
how dependency graphs become canonical, and which classes are in scope.  Every setting
has a default.
-/

namespace ProgramGraphs

/-- How exported files are named and in which format they are written. -/
structure OutputSettings where
  /-- The format where no file name is given. -/
  format : Format := .json
  /-- The name, without its extension, where no file name is given. -/
  fileStem : String := "graph"
  /-- What stands before the file name of a call graph. -/
  callGraphPrefix : String := "call_graph_"
  /-- What stands before the file name of a dependency graph. -/
  sdgPrefix : String := "sdg_"
  deriving DecidableEq, Repr, Inhabited

/-- How dependency graphs become canonical. -/
structure CanonicalSettings where
  backEdges : BackEdgePolicy := .anyNested
  edgeLabels : LabelStrategy := .dependence
  deriving DecidableEq, Repr, Inhabited

/-- Which classes are in scope. -/
structure ScopeSettings where
  applicationLoader : String := "Application"
  excludePrefixes : List String := []
  deriving DecidableEq, Repr, Inhabited

/-- The settings of an export. -/
structure Config where
  output : OutputSettings := {}
  canonicalize : CanonicalSettings := {}
  scope : ScopeSettings := {}
  deriving DecidableEq, Repr, Inhabited

/-- The scope that settings describe. -/
def ScopeSettings.toLoaderScope (settings : ScopeSettings) : LoaderScope :=
  ⟨settings.applicationLoader, settings.excludePrefixes⟩

/-! ## Names of the choices -/

/-- The name of a back edge policy. -/
def BackEdgePolicy.name : BackEdgePolicy → String
  | .anyNested => "any-nested"
  | .sameMethod => "same-method"

/-- All back edge policies. -/
def BackEdgePolicy.all : List BackEdgePolicy := [.anyNested, .sameMethod]

/-- The name of a label strategy. -/
def LabelStrategy.name : LabelStrategy → String
  | .dependence => "dependence"
  | .feature => "feature"

/-- All label strategies. -/
def LabelStrategy.all : List LabelStrategy := [.dependence, .feature]

end ProgramGraphs
