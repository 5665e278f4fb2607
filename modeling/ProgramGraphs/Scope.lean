import ProgramGraphs.Class.Info

/-!
# Application scope

A scope says which classes belong to the program under analysis.  The usual scope names
the class loader of the application and carves out packages by prefixes of qualified
names.
-/

namespace ProgramGraphs

/-- Which classes belong to the application. -/
abbrev Scope := ClassInfo → Bool

/-- The classes of one loader, less those in excluded packages. -/
structure LoaderScope where
  /-- The loader of the application's classes. -/
  loader : String := "Application"
  /-- Prefixes of the qualified names of classes that are left out. -/
  excludedPrefixes : List String := []
  deriving DecidableEq, Repr, Inhabited

namespace LoaderScope

/-- Whether a prefix carves a class out. -/
def excludes (scope : LoaderScope) (info : ClassInfo) : Bool :=
  scope.excludedPrefixes.any fun pre => pre.toList.isPrefixOf info.exportedName.qualified.toList

/-- The scope as a test of classes. -/
def toScope (scope : LoaderScope) : Scope := fun info =>
  info.loader == scope.loader && !scope.excludes info

end LoaderScope

end ProgramGraphs
