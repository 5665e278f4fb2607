import ProgramGraphs.Proofs.Canonical.Links
import ProgramGraphs.Proofs.Search.Renaming
import ProgramGraphs.Proofs.Snapshot.Lookups

/-!
# Nested links within one method

The weaker policy drops a nested link when both ends belong to one method.  It compares
the names of the methods and the descriptors of their classes.  A canonical graph does not
show descriptors, it shows the qualified names that are read off them, and these forget
the marker, the terminator and how the parts were separated.

So the vertices of a link that is dropped always show one method, but two vertices may show
one method and a nested link between them be kept: a class that a snapshot spells in two
ways counts as two (`respelled_link_kept`).  The policy agrees with what is shown exactly
when no nested link leads from one spelling of a class to another, and so on every graph of
a snapshot that spells each class in one way (`sameMethod_agrees_iff`).
-/

namespace ProgramGraphs

/-- Two vertices show one method: the names of the classes are equal, and so are those of
the methods. -/
def CanonicalVertex.SameMethod (first second : CanonicalVertex) : Prop :=
  first.className = second.className ∧ first.method = second.method

/-- The vertices with two ids show one method. -/
def CanonicalGraph.ShowsOneMethod (graph : CanonicalGraph) (source target : Nat) : Prop :=
  ∃ first second, graph.vertices[source]? = some first ∧ graph.vertices[target]? = some second ∧
    first.SameMethod second

namespace DependencyGraph

variable {S : Type} [BEq S] [Hashable S] [LawfulBEq S]

/-- An edge between reached statements whose source was discovered no earlier than its
target and finished no later. -/
structure NestedLink (graph : DependencyGraph S) (scope : Scope) (source target : S) : Prop where
  source_reached : graph.Reachable scope source
  target_mem : target ∈ graph.successors source
  target_reached : graph.Reachable scope target
  inside : ∃ inner outer, (graph.traversal scope).ranks.interval? source = some inner ∧
    (graph.traversal scope).ranks.interval? target = some outer ∧ inner.Inside outer

namespace Searched

variable {graph : DependencyGraph S} {scope : Scope} {forest : Forest S}

theorem nestedLink_iff (hsearched : graph.Searched scope forest) {source target : S} :
    graph.NestedLink scope source target ↔
      (source, target) ∈ graph.links scope ∧ forest.Nested source target := by
  constructor
  · rintro ⟨hsource, hnext, htarget, inner, outer, hinner, houter, hinside⟩
    rw [hsearched.interval?_eq, if_pos (hsearched.mem_iff.mpr hsource)] at hinner
    rw [hsearched.interval?_eq, if_pos (hsearched.mem_iff.mpr htarget)] at houter
    obtain rfl := Option.some.inj hinner
    obtain rfl := Option.some.inj houter
    exact ⟨hsearched.mem_links_of_reachable hsource hnext htarget, hinside⟩
  · rintro ⟨hlink, hnested⟩
    obtain ⟨hsource, hnext, htarget⟩ := hsearched.mem_links.mp hlink
    exact ⟨hsearched.mem_iff.mp hsource, hnext, hsearched.mem_iff.mp htarget, _, _,
      (hsearched.interval?_eq source).trans (if_pos hsource),
      (hsearched.interval?_eq target).trans (if_pos htarget), hnested⟩

/-- What the weaker policy drops: it compares descriptors. -/
theorem not_adjacent_sameMethod_iff (hsearched : graph.Searched scope forest)
    (labeler : Labeler S) {source target : S} (hlink : (source, target) ∈ graph.links scope) :
    ¬ (graph.canonicalize scope .sameMethod labeler).Adjacent (graph.number scope source)
        (graph.number scope target) ↔
      graph.NestedLink scope source target ∧
        (graph.info source).method = (graph.info target).method ∧
        (graph.info source).declaringClass.name = (graph.info target).declaringClass.name := by
  rw [hsearched.adjacent_iff hlink, Bool.not_eq_false, drops_iff, hsearched.nestedLink_iff,
    and_iff_right hlink]
  exact and_congr_right fun _ => ⟨fun hsame => hsame rfl, fun hsame _ => hsame⟩

/-- What the vertices show: they have the qualified names of the classes. -/
theorem showsOneMethod_iff (hsearched : graph.Searched scope forest) (policy : BackEdgePolicy)
    (labeler : Labeler S) {source target : S} (hsource : graph.Reachable scope source)
    (htarget : graph.Reachable scope target) :
    (graph.canonicalize scope policy labeler).ShowsOneMethod (graph.number scope source)
        (graph.number scope target) ↔
      (graph.info source).declaringClass.exportedName.qualified =
          (graph.info target).declaringClass.exportedName.qualified ∧
        (graph.info source).method = (graph.info target).method := by
  rw [CanonicalGraph.ShowsOneMethod,
    hsearched.getElem?_vertices_number policy labeler (hsearched.mem_iff.mpr hsource),
    hsearched.getElem?_vertices_number policy labeler (hsearched.mem_iff.mpr htarget)]
  constructor
  · rintro ⟨first, second, hfirst, hsecond, hsame⟩
    obtain rfl := Option.some.inj hfirst
    obtain rfl := Option.some.inj hsecond
    exact hsame
  · exact fun hsame => ⟨_, _, rfl, rfl, hsame⟩

theorem showsOneMethod_of_dropped (hsearched : graph.Searched scope forest)
    (labeler : Labeler S) {source target : S} (hnested : graph.NestedLink scope source target)
    (hdropped : ¬ (graph.canonicalize scope .sameMethod labeler).Adjacent
      (graph.number scope source) (graph.number scope target)) :
    (graph.canonicalize scope .sameMethod labeler).ShowsOneMethod (graph.number scope source)
      (graph.number scope target) := by
  have hlink := (hsearched.nestedLink_iff.mp hnested).1
  obtain ⟨-, hmethod, hname⟩ :=
    (hsearched.not_adjacent_sameMethod_iff labeler hlink).mp hdropped
  refine (hsearched.showsOneMethod_iff _ labeler hnested.source_reached
    hnested.target_reached).mpr ⟨?_, hmethod⟩
  -- a qualified name is read off the descriptor alone
  rw [ClassInfo.exportedName, hname]
  rfl

end Searched

/-- On a nested link the policy agrees with the vertices unless these show one method of
two classes whose descriptors differ. -/
theorem dropped_iff_shown_iff (graph : DependencyGraph S) (scope : Scope) (labeler : Labeler S)
    {source target : S} (hnested : graph.NestedLink scope source target) :
    let result := graph.canonicalize scope .sameMethod labeler
    let number := graph.number scope
    (¬ result.Adjacent (number source) (number target) ↔
        result.ShowsOneMethod (number source) (number target)) ↔
      (result.ShowsOneMethod (number source) (number target) →
        (graph.info source).declaringClass.name = (graph.info target).declaringClass.name) := by
  intro result number
  obtain ⟨forest, hsearched⟩ := graph.exists_searched scope
  have hlink := (hsearched.nestedLink_iff.mp hnested).1
  have hdropped := hsearched.not_adjacent_sameMethod_iff labeler hlink
  have hvertices := hsearched.showsOneMethod_iff .sameMethod labeler hnested.source_reached
    hnested.target_reached
  constructor
  · intro hagrees hshown
    exact (hdropped.mp (hagrees.mpr hshown)).2.2
  · intro hspelled
    refine ⟨hsearched.showsOneMethod_of_dropped labeler hnested, fun hshown => ?_⟩
    exact hdropped.mpr ⟨hnested, (hvertices.mp hshown).2, hspelled hshown⟩

end DependencyGraph

namespace Snapshot

open DependencyGraph

/-- Classes with one qualified name have one descriptor. -/
def SpellsClassesOnce (snapshot : Snapshot) : Prop :=
  ∀ first ∈ snapshot.classes, ∀ second ∈ snapshot.classes,
    first.exportedName.qualified = second.exportedName.qualified → first.name = second.name

instance (snapshot : Snapshot) : Decidable snapshot.SpellsClassesOnce :=
  inferInstanceAs (Decidable (∀ first ∈ snapshot.classes, ∀ second ∈ snapshot.classes,
    first.exportedName.qualified = second.exportedName.qualified → first.name = second.name))

variable {snapshot : Snapshot} {view : View}

theorem StatementAt.declaringClass_mem {place : Nat} (found : snapshot.StatementAt place) :
    found.node.declaringClass ∈ snapshot.classes :=
  List.mem_of_getElem? found.node.class_eq

theorem mem_successors_iff (hvalid : snapshot.validate = .ok view) {source target : Nat} :
    target ∈ view.dependencyGraph.successors source ↔
      (source, target) ∈ snapshot.edges.map Edge.ends := by
  rw [successors_of_validate hvalid, mem_firstTargets]

theorem statementAt_of_reachable (hvalid : snapshot.validate = .ok view) {scope : Scope}
    {place : Nat} (hreached : view.dependencyGraph.Reachable scope place) :
    ∃ found : snapshot.StatementAt place, view.dependencyGraph.info place = found.info :=
  dependencyGraph_shows hvalid (.listed hreached.inScope.1)

theorem name_eq_of_spellsClassesOnce (hvalid : snapshot.validate = .ok view)
    (honce : snapshot.SpellsClassesOnce) {scope : Scope} {source target : Nat}
    (hsource : view.dependencyGraph.Reachable scope source)
    (htarget : view.dependencyGraph.Reachable scope target)
    (hqualified : (view.dependencyGraph.info source).declaringClass.exportedName.qualified =
      (view.dependencyGraph.info target).declaringClass.exportedName.qualified) :
    (view.dependencyGraph.info source).declaringClass.name =
      (view.dependencyGraph.info target).declaringClass.name := by
  obtain ⟨first, hfirst⟩ := statementAt_of_reachable hvalid hsource
  obtain ⟨second, hsecond⟩ := statementAt_of_reachable hvalid htarget
  rw [hfirst, hsecond] at hqualified ⊢
  exact honce _ first.declaringClass_mem _ second.declaringClass_mem hqualified

/-- **The policy agrees with what is shown up to the spelling of classes.**  Of the edges
between reached statements the weaker policy drops the nested ones whose ends have equal
method names and equal descriptors, while their vertices show one method when the qualified
names are equal.  So nothing is dropped between different methods, and the policy agrees
with the vertices exactly when no nested edge leads from one spelling of a class to
another.  It does when the snapshot spells each class in one way. -/
theorem sameMethod_agrees_iff (hvalid : snapshot.validate = .ok view) (scope : Scope)
    (labeler : Labeler Nat) :
    let graph := view.dependencyGraph
    let result := graph.canonicalize scope .sameMethod labeler
    let number := graph.number scope
    let dropped := fun source target => ¬ result.Adjacent (number source) (number target)
    let shown := fun source target => result.ShowsOneMethod (number source) (number target)
    (∀ source target, (source, target) ∈ snapshot.edges.map Edge.ends →
      graph.Reachable scope source → graph.Reachable scope target →
        ∃ (first : snapshot.StatementAt source) (second : snapshot.StatementAt target),
          (dropped source target ↔ graph.NestedLink scope source target ∧
            first.node.method.name = second.node.method.name ∧
            first.node.declaringClass.name = second.node.declaringClass.name) ∧
          (shown source target ↔
            first.node.declaringClass.exportedName.qualified =
                second.node.declaringClass.exportedName.qualified ∧
              first.node.method.name = second.node.method.name)) ∧
      (∀ source target, graph.NestedLink scope source target → dropped source target →
        shown source target) ∧
      ((∀ source target, graph.NestedLink scope source target →
          (dropped source target ↔ shown source target)) ↔
        ∀ source target, graph.NestedLink scope source target → shown source target →
          (graph.info source).declaringClass.name = (graph.info target).declaringClass.name) ∧
      (snapshot.SpellsClassesOnce → ∀ source target, graph.NestedLink scope source target →
        (dropped source target ↔ shown source target)) := by
  intro graph result number dropped shown
  obtain ⟨forest, hsearched⟩ := graph.exists_searched scope
  have hagrees : ∀ source target, graph.NestedLink scope source target →
      ((dropped source target ↔ shown source target) ↔ (shown source target →
        (graph.info source).declaringClass.name = (graph.info target).declaringClass.name)) :=
    fun source target => graph.dropped_iff_shown_iff scope labeler
  refine ⟨?_, ?_, ?_, ?_⟩
  · intro source target hlisted hsource htarget
    have hlink := hsearched.mem_links_of_reachable hsource
      ((mem_successors_iff hvalid).mpr hlisted) htarget
    have hdropped := hsearched.not_adjacent_sameMethod_iff labeler hlink
    have hshown := hsearched.showsOneMethod_iff .sameMethod labeler hsource htarget
    obtain ⟨first, hfirst⟩ := statementAt_of_reachable hvalid hsource
    obtain ⟨second, hsecond⟩ := statementAt_of_reachable hvalid htarget
    rw [hfirst, hsecond] at hdropped hshown
    exact ⟨first, second, hdropped, hshown⟩
  · intro source target hnested hdropped
    exact hsearched.showsOneMethod_of_dropped labeler hnested hdropped
  · exact forall_congr' fun source => forall_congr' fun target =>
      forall_congr' fun hnested => hagrees source target hnested
  · intro honce source target hnested
    refine (hagrees source target hnested).mpr fun hshown => ?_
    have hsource := hnested.source_reached
    have htarget := hnested.target_reached
    have hnames := (hsearched.showsOneMethod_iff .sameMethod labeler hsource htarget).mp hshown
    exact name_eq_of_spellsClassesOnce hvalid honce hsource htarget hnames.1

/-- A method of a class and a method of the same name in another class, each of which
depends on the other. -/
def paired (descriptor : String) : Snapshot :=
  { classes := [
      { name := "Lp/A", loader := "Application" },
      { name := descriptor, loader := "Application" }]
    methods := [⟨"run", 0⟩, ⟨"run", 1⟩]
    callGraph := { nodes := [{ method := 0 }, { method := 1 }], entryPoints := [0] }
    dependencyGraph := some
      { statements := [{ node := 0, kind := .methodEntry }, { node := 1, kind := .methodEntry }]
        edges := [{ source := 0, target := 1 }, { source := 1, target := 0 }]
        entries := some [0] } }

theorem inScope_paired {descriptor : String} {view : View}
    (hvalid : (paired descriptor).validate = .ok view) {place : Nat} (hlt : place < 2) :
    view.dependencyGraph.InScope ({} : LoaderScope).toScope place := by
  obtain ⟨-, rfl⟩ := validate_eq_ok hvalid
  have hcases : place = 0 ∨ place = 1 := by omega
  rcases hcases with rfl | rfl <;>
    simp [InScope, View.dependencyGraph, View.statementInfos, View.statementInfo?, nodeInfos,
      statements, paired, LoaderScope.toScope, LoaderScope.excludes]

/-- The second statement is found from the first, and nothing else is. -/
theorem searched_paired {descriptor : String} {view : View}
    (hvalid : (paired descriptor).validate = .ok view) :
    view.dependencyGraph.Searched ({} : LoaderScope).toScope
      (.tree 0 (.tree 1 .empty .empty) .empty) := by
  have hfirst : view.dependencyGraph.successors 0 = [1] := successors_of_validate hvalid 0
  have hsecond : view.dependencyGraph.successors 1 = [0] := successors_of_validate hvalid 1
  have hentries : view.dependencyGraph.entries = [0] := by
    obtain ⟨-, rfl⟩ := validate_eq_ok hvalid
    exact entries_tables _ _
  refine searched_of_grows ?_
  rw [hentries]
  refine .visit (inScope_paired hvalid (by decide)) ?_ (.done _)
  rw [hfirst]
  refine .visit ⟨inScope_paired hvalid (by decide), by decide⟩ ?_ (.done _)
  rw [hsecond]
  exact .skip (fun hwhite => hwhite.1.2 rfl) (.done _)

theorem nestedLink_paired {descriptor : String} {view : View}
    (hvalid : (paired descriptor).validate = .ok view) :
    view.dependencyGraph.NestedLink ({} : LoaderScope).toScope 1 0 := by
  have hsearched := searched_paired hvalid
  refine hsearched.nestedLink_iff.mpr ⟨hsearched.mem_links.mpr ⟨by decide, ?_, by decide⟩, ?_⟩
  · exact (mem_successors_iff hvalid).mpr (by simp [paired, edges, Edge.ends])
  · show DepthFirst.Interval.Inside _ _
    decide

/-- Both methods run, the first in a class whose descriptor has no terminator. -/
theorem info_paired {descriptor : String} {view : View}
    (hvalid : (paired descriptor).validate = .ok view) :
    view.dependencyGraph.info 0 =
        { kind := .methodEntry, method := "run", position := .unknown
          declaringClass := { name := "Lp/A", loader := "Application" } } ∧
      view.dependencyGraph.info 1 =
        { kind := .methodEntry, method := "run", position := .unknown
          declaringClass := { name := descriptor, loader := "Application" } } := by
  obtain ⟨-, rfl⟩ := validate_eq_ok hvalid
  constructor <;>
    simp [View.dependencyGraph, View.statementInfos, View.statementInfo?, nodeInfos, statements,
      paired, Position.ofOption]

theorem showsOneMethod_paired {descriptor : String} {view : View}
    (hvalid : (paired descriptor).validate = .ok view)
    (hname : (ClassName.ofDescriptor descriptor).qualified = "p.A") (labeler : Labeler Nat) :
    (view.dependencyGraph.canonicalize ({} : LoaderScope).toScope .sameMethod
      labeler).ShowsOneMethod (view.dependencyGraph.number ({} : LoaderScope).toScope 1)
        (view.dependencyGraph.number ({} : LoaderScope).toScope 0) := by
  obtain ⟨hfirst, hsecond⟩ := info_paired hvalid
  have hnested := nestedLink_paired hvalid
  rw [(searched_paired hvalid).showsOneMethod_iff _ labeler hnested.source_reached
    hnested.target_reached, hfirst, hsecond]
  have hshort : (ClassName.ofDescriptor "Lp/A").qualified = "p.A" := by decide
  exact ⟨hname.trans hshort.symm, rfl⟩

/-- **A class that is spelled in two ways counts as two.**  The nested link from one
spelling to the other is kept, although both vertices show one class and one method. -/
theorem respelled_link_kept :
    ∃ view, (paired "Lp/A;").validate = .ok view ∧
      let graph := view.dependencyGraph
      let scope := ({} : LoaderScope).toScope
      let result := graph.canonicalize scope .sameMethod (graph.labeler .dependence)
      graph.NestedLink scope 1 0 ∧
        result.vertices = [⟨0, .unknown, "run", "p.A"⟩, ⟨1, .unknown, "run", "p.A"⟩] ∧
        result.ShowsOneMethod (graph.number scope 1) (graph.number scope 0) ∧
        result.Adjacent (graph.number scope 1) (graph.number scope 0) := by
  obtain ⟨view, hvalid⟩ : ∃ view, (paired "Lp/A;").validate = .ok view := ⟨_, rfl⟩
  have hsearched := searched_paired hvalid
  have hnested := nestedLink_paired hvalid
  obtain ⟨hfirst, hsecond⟩ := info_paired hvalid
  refine ⟨view, hvalid, hnested, ?_, showsOneMethod_paired hvalid (by decide) _, ?_⟩
  · simp only [canonicalize, hsearched.traversal_eq, Forest.preorder, List.append_nil,
      List.zipIdx_cons, List.zipIdx_nil, List.map_cons, List.map_nil, canonicalVertex, hfirst,
      hsecond]
    decide
  · by_contra hdropped
    obtain ⟨-, -, hname⟩ := (hsearched.not_adjacent_sameMethod_iff _
      (hsearched.nestedLink_iff.mp hnested).1).mp hdropped
    rw [hfirst, hsecond] at hname
    exact absurd hname (by decide)

/-- With one spelling the link is dropped. -/
theorem sameMethod_agrees_paired :
    ∃ view, (paired "Lp/A").validate = .ok view ∧ (paired "Lp/A").SpellsClassesOnce ∧
      let graph := view.dependencyGraph
      let scope := ({} : LoaderScope).toScope
      let result := graph.canonicalize scope .sameMethod (graph.labeler .dependence)
      graph.NestedLink scope 1 0 ∧
        result.ShowsOneMethod (graph.number scope 1) (graph.number scope 0) ∧
        ¬ result.Adjacent (graph.number scope 1) (graph.number scope 0) := by
  obtain ⟨view, hvalid⟩ : ∃ view, (paired "Lp/A").validate = .ok view := ⟨_, rfl⟩
  have hnested := nestedLink_paired hvalid
  have hshown :=
    showsOneMethod_paired hvalid (by decide) (view.dependencyGraph.labeler .dependence)
  have honce : (paired "Lp/A").SpellsClassesOnce := by decide
  obtain ⟨-, -, -, hagrees⟩ := sameMethod_agrees_iff hvalid ({} : LoaderScope).toScope
    (view.dependencyGraph.labeler .dependence)
  exact ⟨view, hvalid, honce, hnested, hshown, (hagrees honce 1 0 hnested).mpr hshown⟩

end Snapshot

end ProgramGraphs
