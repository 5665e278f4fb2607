import ProgramGraphs.Snapshot.Basic

/-!
# References inside a snapshot

Everything in a snapshot that refers to an element of one of its lists is a *reference*.
A reference is dangling when there is no such element.  The references of a snapshot
have a fixed order: methods, call graph nodes, entry points, statements, edges, entries.
-/

namespace ProgramGraphs.Snapshot

/-- What a reference is for. -/
inductive Relation where
  /-- The class that declares a method. -/
  | classOfMethod
  /-- The method of a call graph node. -/
  | methodOfNode
  /-- A target of a call. -/
  | callTarget
  /-- An entry point of the call graph. -/
  | entryPoint
  /-- The node of a statement. -/
  | nodeOfStatement
  /-- The statement that an edge leaves. -/
  | edgeSource
  /-- The statement that an edge enters. -/
  | edgeTarget
  /-- An entry of the dependency graph. -/
  | entry
  deriving DecidableEq, Repr, Inhabited

/-- A reference to the element at a place. -/
structure Reference where
  relation : Relation
  /-- The place of the element that refers; zero for a whole graph. -/
  owner : Nat
  /-- The place that is referred to. -/
  place : Index
  /-- The length of the list that is referred to. -/
  length : Nat
  deriving DecidableEq, Repr, Inhabited

/-- What refers, in a report. -/
def Relation.ownerName : Relation → String
  | .classOfMethod => "method"
  | .methodOfNode | .callTarget => "call graph node"
  | .entryPoint => "call graph"
  | .nodeOfStatement => "statement"
  | .edgeSource | .edgeTarget => "dependency edge"
  | .entry => "dependency graph"

/-- What is referred to, in a report. -/
def Relation.targetName : Relation → String
  | .classOfMethod => "class"
  | .methodOfNode => "method"
  | .callTarget => "call target"
  | .entryPoint => "entry point"
  | .nodeOfStatement => "node"
  | .edgeSource => "source"
  | .edgeTarget => "target"
  | .entry => "entry"

namespace Reference

/-- Whether the list has no element at the place. -/
def Dangling (reference : Reference) : Prop := reference.length ≤ reference.place.toNat

instance (reference : Reference) : Decidable reference.Dangling :=
  inferInstanceAs (Decidable (_ ≤ _))

/-- The report of a dangling reference. -/
def message (reference : Reference) : String :=
  reference.relation.ownerName ++ " " ++ toString reference.owner ++ " references " ++
    reference.relation.targetName ++ " " ++ toString reference.place.toNat ++ " but only " ++
    toString reference.length ++ " exist"

end Reference

/-- The references of the methods to classes. -/
def methodReferences (snapshot : Snapshot) : List Reference :=
  snapshot.methods.zipIdx.map fun (method, owner) =>
    ⟨.classOfMethod, owner, method.declaringClass, snapshot.classes.length⟩

/-- The references of the call graph's nodes: each to its method, and then to the targets of
its calls. -/
def nodeReferences (snapshot : Snapshot) : List Reference :=
  snapshot.callGraph.nodes.zipIdx.flatMap fun (node, owner) =>
    ⟨.methodOfNode, owner, node.method, snapshot.methods.length⟩ ::
      (node.callSites.flatMap (·.targets)).map fun target =>
        ⟨.callTarget, owner, target, snapshot.callGraph.nodes.length⟩

/-- The references of the call graph to its entry points. -/
def entryPointReferences (snapshot : Snapshot) : List Reference :=
  snapshot.callGraph.entryPoints.map fun node =>
    ⟨.entryPoint, 0, node, snapshot.callGraph.nodes.length⟩

/-- The references of a dependency graph over a call graph with some number of nodes. -/
def DependencySection.references (graph : DependencySection) (nodes : Nat) : List Reference :=
  let statements := graph.statements.length
  (graph.statements.zipIdx.map fun (statement, owner) =>
      ⟨.nodeOfStatement, owner, statement.node, nodes⟩) ++
    (graph.edges.zipIdx.flatMap fun (edge, owner) =>
      [⟨.edgeSource, owner, edge.source, statements⟩,
       ⟨.edgeTarget, owner, edge.target, statements⟩]) ++
    (graph.entries.getD []).map fun statement => ⟨.entry, 0, statement, statements⟩

/-- All references of a snapshot, in the order in which they are checked. -/
def references (snapshot : Snapshot) : List Reference :=
  snapshot.methodReferences ++ snapshot.nodeReferences ++ snapshot.entryPointReferences ++
    match snapshot.dependencyGraph with
    | some graph => graph.references snapshot.callGraph.nodes.length
    | none => []

/-- The first dangling reference, if any. -/
def dangling? (snapshot : Snapshot) : Option Reference :=
  snapshot.references.find? fun reference => decide reference.Dangling

end ProgramGraphs.Snapshot
