import ProgramGraphs.Proofs.Canonical.Acyclic
import ProgramGraphs.Proofs.Search.Renaming

/-!
# Canonical graphs do not depend on names

Two dependency graphs that look alike from their entries in scope have the same
canonical graph, whatever their statements are called, in whatever order they
are listed, and whatever else the graphs hold (`canonicalize_eq_of_renames`).

"Look alike" is `Renames`: the statements that are reached in the one graph have
names in the other, no two of them the same name, and there they have the same
entries in scope, the same successors in scope and the same contents.  The
forest that the second search grows is then the first one under these names
(`Renames.searched_map`), and all that the canonical graph shows are places in
the two orders of the forest and contents.

One graph that looks like another is the same one `renumbered`, with other names
for its statements, in its entries as well, and without some that are out of
reach (`canonicalize_renumbered`).
-/

namespace ProgramGraphs.DependencyGraph

variable {S T : Type} [BEq S] [LawfulBEq S] [BEq T] [LawfulBEq T]

instance (graph : DependencyGraph S) (scope : Scope) (statement : S) :
    Decidable (graph.InScope scope statement) :=
  inferInstanceAs (Decidable (_ ∧ _))

/-- The entries in scope, in their order. -/
def scopedEntries (graph : DependencyGraph S) (scope : Scope) : List S :=
  graph.entries.filter fun entry => graph.InScope scope entry

/-- The successors of a statement that are in scope, in their order and with
repetitions. -/
def scopedSuccessors (graph : DependencyGraph S) (scope : Scope) (statement : S) : List S :=
  (graph.successors statement).filter fun next => graph.InScope scope next

theorem mem_scopedEntries {graph : DependencyGraph S} {scope : Scope} {entry : S} :
    entry ∈ graph.scopedEntries scope ↔ entry ∈ graph.entries ∧ graph.InScope scope entry := by
  simp [scopedEntries]

theorem mem_scopedSuccessors {graph : DependencyGraph S} {scope : Scope} {statement next : S} :
    next ∈ graph.scopedSuccessors scope statement ↔
      next ∈ graph.successors statement ∧ graph.InScope scope next := by
  simp [scopedSuccessors]

theorem reachable_of_mem_scopedEntries {graph : DependencyGraph S} {scope : Scope} {entry : S}
    (hentry : entry ∈ graph.scopedEntries scope) : graph.Reachable scope entry := by
  obtain ⟨hentry, hscope⟩ := mem_scopedEntries.mp hentry
  exact ⟨entry, hentry, hscope, Relation.ReflTransGen.refl⟩

theorem reachable_of_mem_scopedSuccessors {graph : DependencyGraph S} {scope : Scope}
    {statement next : S} (hreached : graph.Reachable scope statement)
    (hnext : next ∈ graph.scopedSuccessors scope statement) : graph.Reachable scope next := by
  obtain ⟨entry, hentry, hscope, hpath⟩ := hreached
  exact ⟨entry, hentry, hscope, hpath.tail (mem_scopedSuccessors.mp hnext)⟩

/-- The reached statements of one graph have names in another graph, where they
have the same entries, successors and contents. -/
structure Renames (f : S → T) (old : DependencyGraph S) (oldScope : Scope) (oldLabeler : Labeler S)
    (new : DependencyGraph T) (newScope : Scope) (newLabeler : Labeler T) : Prop where
  injOn : Set.InjOn f {statement | old.Reachable oldScope statement}
  entries_eq : new.scopedEntries newScope = (old.scopedEntries oldScope).map f
  successors_eq : ∀ statement, old.Reachable oldScope statement →
    new.scopedSuccessors newScope (f statement) = (old.scopedSuccessors oldScope statement).map f
  method_eq : ∀ statement, old.Reachable oldScope statement →
    (new.info (f statement)).method = (old.info statement).method
  className_eq : ∀ statement, old.Reachable oldScope statement →
    (new.info (f statement)).declaringClass.name = (old.info statement).declaringClass.name
  position_eq : ∀ statement, old.Reachable oldScope statement →
    (new.info (f statement)).position = (old.info statement).position
  label_eq : ∀ source target, old.Reachable oldScope source → old.Reachable oldScope target →
    target ∈ old.successors source → newLabeler (f source) (f target) = oldLabeler source target
  context_eq : ∀ source target, old.Reachable oldScope source → old.Reachable oldScope target →
    target ∈ old.successors source → new.context (f source) (f target) = old.context source target

namespace Searched

variable [Hashable S] {graph : DependencyGraph S} {scope : Scope} {forest : Forest S}

/-- The search could as well be given what is in scope only. -/
theorem grows_scoped (hsearched : graph.Searched scope forest) :
    Grows (graph.scopedSuccessors scope) {statement | graph.InScope scope statement}
      (graph.scopedEntries scope) forest :=
  hsearched.grows.restrict fun _ hscope => decide_eq_true hscope

theorem filter_mem_scopedSuccessors (hsearched : graph.Searched scope forest) (statement : S) :
    (graph.scopedSuccessors scope statement).filter (· ∈ forest) =
      (graph.successors statement).filter (· ∈ forest) := by
  rw [scopedSuccessors, List.filter_filter]
  refine List.filter_congr fun next _ => ?_
  by_cases hmem : next ∈ forest
  · simp [hmem, hsearched.inScope_of_mem hmem]
  · simp [hmem]

end Searched

namespace Renames

variable {f : S → T} {old : DependencyGraph S} {oldScope : Scope} {oldLabeler : Labeler S}
  {new : DependencyGraph T} {newScope : Scope} {newLabeler : Labeler T}

/-- The new names of reached statements are in scope. -/
theorem inScope (hrenames : Renames f old oldScope oldLabeler new newScope newLabeler)
    {statement : S} (hreached : old.Reachable oldScope statement) :
    new.InScope newScope (f statement) := by
  obtain ⟨entry, hentry, hscope, hpath⟩ := hreached
  cases hpath with
  | refl =>
      have hmem : f statement ∈ new.scopedEntries newScope := by
        rw [hrenames.entries_eq]
        exact List.mem_map_of_mem (mem_scopedEntries.mpr ⟨hentry, hscope⟩)
      exact (mem_scopedEntries.mp hmem).2
  | @tail source _ hpath hstep =>
      have hmem : f statement ∈ new.scopedSuccessors newScope (f source) := by
        rw [hrenames.successors_eq source ⟨entry, hentry, hscope, hpath⟩]
        exact List.mem_map_of_mem (mem_scopedSuccessors.mpr hstep)
      exact (mem_scopedSuccessors.mp hmem).2

variable [Hashable S] [Hashable T] {forest : Forest S}

/-- The search of the new graph grows the forest of the old one under the new
names. -/
theorem searched_map (hrenames : Renames f old oldScope oldLabeler new newScope newLabeler)
    (hsearched : old.Searched oldScope forest) : new.Searched newScope (forest.map f) := by
  have hscope : ∀ statement ∈ {statement | old.Reachable oldScope statement},
      f statement ∈ {name | new.InScope newScope name} ↔
        statement ∈ {statement | old.InScope oldScope statement} := fun statement hreached =>
    iff_of_true (hrenames.inScope hreached)
      (hsearched.inScope_of_mem (hsearched.mem_iff.mpr hreached))
  have hgrows : Grows (new.scopedSuccessors newScope) {name | new.InScope newScope name}
      (new.scopedEntries newScope) (forest.map f) := by
    rw [hrenames.entries_eq]
    exact hsearched.grows_scoped.map hrenames.injOn
      (fun _ hreached _ => reachable_of_mem_scopedSuccessors hreached) hrenames.successors_eq
      (fun _ => reachable_of_mem_scopedEntries) hscope
  obtain ⟨other, hother⟩ := new.exists_searched newScope
  rwa [← hother.grows_scoped.unique hgrows]

section Searched

variable (hrenames : Renames f old oldScope oldLabeler new newScope newLabeler)
  (hsearched : old.Searched oldScope forest)

include hrenames hsearched

omit [Hashable T] in
theorem interval_eq {statement : S} (hmem : statement ∈ forest) :
    (forest.map f).interval (f statement) = forest.interval statement :=
  Forest.interval_map hrenames.injOn (fun _ => hsearched.mem_iff.mp)
    (hsearched.mem_iff.mp hmem)

/-- The links are those of the old graph under the new names. -/
theorem links_eq : new.links newScope = (old.links oldScope).map (Prod.map f f) := by
  have hnew := hrenames.searched_map hsearched
  rw [hnew.links_eq, hsearched.links_eq, Forest.postorder_map, List.flatMap_map, List.map_flatMap]
  refine List.flatMap_congr fun source hsource => ?_
  have hreached : old.Reachable oldScope source :=
    hsearched.mem_iff.mp (Forest.mem_postorder.mp hsource)
  have hsuccessors : (new.successors (f source)).filter (· ∈ forest.map f) =
      ((old.successors source).filter (· ∈ forest)).map f := by
    rw [← hnew.filter_mem_scopedSuccessors, ← hsearched.filter_mem_scopedSuccessors,
      hrenames.successors_eq source hreached, List.filter_map]
    refine congrArg (List.map f) (List.filter_congr fun target htarget => ?_)
    have htarget := reachable_of_mem_scopedSuccessors hreached htarget
    exact decide_eq_decide.mpr
      (Forest.mem_map hrenames.injOn (fun _ => hsearched.mem_iff.mp) htarget)
  rw [hsuccessors, List.map_map, List.map_map]
  rfl

omit [Hashable T] in
/-- A link is dropped in both graphs or in neither. -/
theorem drops_eq (policy : BackEdgePolicy) {link : S × S} (hlink : link ∈ old.links oldScope) :
    new.drops policy (forest.map f) (Prod.map f f link) = old.drops policy forest link := by
  obtain ⟨source, target⟩ := link
  obtain ⟨hsource, -, htarget⟩ := hsearched.mem_links.mp hlink
  have hreached := hsearched.mem_iff.mp hsource
  have htargetReached := hsearched.mem_iff.mp htarget
  rw [Bool.eq_iff_iff, Prod.map_apply, drops_iff, drops_iff, Forest.Nested, Forest.Nested,
    hrenames.interval_eq hsearched hsource, hrenames.interval_eq hsearched htarget,
    hrenames.method_eq source hreached, hrenames.method_eq target htargetReached,
    hrenames.className_eq source hreached, hrenames.className_eq target htargetReached]

/-- A link becomes the same edge in both graphs. -/
theorem canonicalLink_eq {link : S × S} (hlink : link ∈ old.links oldScope) :
    new.canonicalLink newScope newLabeler (Prod.map f f link) =
      old.canonicalLink oldScope oldLabeler link := by
  obtain ⟨source, target⟩ := link
  obtain ⟨hsource, hnext, htarget⟩ := hsearched.mem_links.mp hlink
  have hreached := hsearched.mem_iff.mp hsource
  have htargetReached := hsearched.mem_iff.mp htarget
  have hnumber : ∀ statement ∈ forest,
      new.number newScope (f statement) = old.number oldScope statement := by
    intro statement hmem
    rw [(hrenames.searched_map hsearched).number_eq, hsearched.number_eq]
    exact congrArg DepthFirst.Interval.discover (hrenames.interval_eq hsearched hmem)
  simp only [canonicalLink, Prod.map_apply]
  rw [hnumber source hsource, hnumber target htarget,
    hrenames.label_eq source target hreached htargetReached hnext,
    hrenames.context_eq source target hreached htargetReached hnext]

theorem vertices_eq (policy : BackEdgePolicy) :
    (new.canonicalize newScope policy newLabeler).vertices =
      (old.canonicalize oldScope policy oldLabeler).vertices := by
  simp only [canonicalize, (hrenames.searched_map hsearched).traversal_eq, hsearched.traversal_eq,
    Forest.preorder_map, List.zipIdx_map, List.map_map]
  refine List.map_congr_left fun place hplace => ?_
  obtain ⟨statement, rank⟩ := place
  have hreached : old.Reachable oldScope statement :=
    hsearched.mem_iff.mp (List.mem_of_getElem? (List.mk_mem_zipIdx_iff_getElem?.mp hplace))
  simp only [Function.comp_apply, Prod.map_apply, canonicalVertex, ClassInfo.exportedName, id_eq]
  rw [hrenames.method_eq statement hreached, hrenames.className_eq statement hreached,
    hrenames.position_eq statement hreached]

theorem keptLinks_eq (policy : BackEdgePolicy) :
    new.keptLinks newScope policy (forest.map f) =
      (old.keptLinks oldScope policy forest).map (Prod.map f f) := by
  rw [keptLinks, keptLinks, hrenames.links_eq hsearched, List.filter_map]
  refine congrArg (List.map (Prod.map f f)) (List.filter_congr fun link hlink => ?_)
  exact congrArg not (hrenames.drops_eq hsearched policy hlink)

theorem edges_eq (policy : BackEdgePolicy) :
    (new.canonicalize newScope policy newLabeler).edges =
      (old.canonicalize oldScope policy oldLabeler).edges := by
  rw [(hrenames.searched_map hsearched).edges_eq, hsearched.edges_eq,
    hrenames.keptLinks_eq hsearched, List.map_map]
  refine List.map_congr_left fun link hlink => ?_
  exact hrenames.canonicalLink_eq hsearched (Searched.mem_keptLinks.mp hlink).1

theorem reached_eq (policy : BackEdgePolicy) :
    (new.canonicalize newScope policy newLabeler).stats.reached =
      (old.canonicalize oldScope policy oldLabeler).stats.reached := by
  rw [DependencyGraph.reached_eq, DependencyGraph.reached_eq, hrenames.vertices_eq hsearched]

theorem keptEdges_eq (policy : BackEdgePolicy) :
    (new.canonicalize newScope policy newLabeler).stats.keptEdges =
      (old.canonicalize oldScope policy oldLabeler).stats.keptEdges := by
  rw [DependencyGraph.keptEdges_eq, DependencyGraph.keptEdges_eq, hrenames.edges_eq hsearched]

theorem backEdges_eq (policy : BackEdgePolicy) :
    (new.canonicalize newScope policy newLabeler).stats.backEdges =
      (old.canonicalize oldScope policy oldLabeler).stats.backEdges := by
  rw [(hrenames.searched_map hsearched).backEdges_eq, hsearched.backEdges_eq,
    hrenames.links_eq hsearched, List.filter_map, List.length_map]
  refine congrArg List.length (List.filter_congr fun link hlink => ?_)
  exact hrenames.drops_eq hsearched policy hlink

end Searched

end Renames

variable [Hashable S] [Hashable T]

/-- **Names do not show.**  When the reached statements of one graph are found
again in another one under other names, both have the same canonical graph, up
to the counts of statements that the searches did not meet.  So neither the
order and the numbers of the statements matter, nor what is out of reach or out
of scope (`canonicalize_renumbered`). -/
theorem canonicalize_eq_of_renames {f : S → T} {old : DependencyGraph S} {oldScope : Scope}
    {oldLabeler : Labeler S} {new : DependencyGraph T} {newScope : Scope} {newLabeler : Labeler T}
    (hrenames : Renames f old oldScope oldLabeler new newScope newLabeler)
    (policy : BackEdgePolicy) :
    let before := old.canonicalize oldScope policy oldLabeler
    let after := new.canonicalize newScope policy newLabeler
    after.vertices = before.vertices ∧ after.edges = before.edges ∧
      after.stats.reached = before.stats.reached ∧
      after.stats.keptEdges = before.stats.keptEdges ∧
      after.stats.backEdges = before.stats.backEdges := by
  intro before after
  obtain ⟨forest, hsearched⟩ := old.exists_searched oldScope
  exact ⟨hrenames.vertices_eq hsearched policy, hrenames.edges_eq hsearched policy,
    hrenames.reached_eq hsearched policy, hrenames.keptEdges_eq hsearched policy,
    hrenames.backEdges_eq hsearched policy⟩

/-- The tangle once more, counted the other way round, with a statement of the
library before it and a statement that nothing leads to behind it. -/
def mirroredTangle : DependencyGraph Nat :=
  { statements := [4, 3, 2, 1, 0, 5]
    successors := fun statement =>
      ([[2], [3], [4, 1, 2, 1], [2, 4], [5, 0], [0]][statement]?).getD []
    entries := [4, 3, 0]
    info := fun statement =>
      { declaringClass := { loader := if statement = 4 then "Primordial" else "Application" } }
    dependence := fun _ _ => none
    context := fun _ _ => none }

theorem renames_tangle :
    Renames (3 - ·) tangle (fun _ => true) tangle.dependence mirroredTangle
      ({} : LoaderScope).toScope mirroredTangle.dependence := by
  have hlt : ∀ statement, tangle.Reachable (fun _ => true) statement → statement < 4 :=
    fun statement hreached => List.mem_range.mp hreached.inScope.1
  have hsuccessors : ∀ statement < 4,
      mirroredTangle.scopedSuccessors ({} : LoaderScope).toScope (3 - statement) =
        (tangle.scopedSuccessors (fun _ => true) statement).map (3 - ·) := by
    decide
  refine ⟨fun first hfirst second hsecond heq => ?_, by decide,
    fun statement hreached => hsuccessors statement (hlt statement hreached), fun _ _ => rfl,
    fun _ _ => rfl, fun _ _ => rfl, fun _ _ _ _ _ => rfl, fun _ _ _ _ _ => rfl⟩
  have hfirst := hlt first hfirst
  have hsecond := hlt second hsecond
  have heq : 3 - first = 3 - second := heq
  omega

theorem canonicalize_mirroredTangle :
    let before := tangle.canonicalize (fun _ => true) .anyNested tangle.dependence
    let after := mirroredTangle.canonicalize ({} : LoaderScope).toScope .anyNested
      mirroredTangle.dependence
    after.vertices = before.vertices ∧ after.edges = before.edges ∧
      after.stats.reached = before.stats.reached ∧
      after.stats.keptEdges = before.stats.keptEdges ∧
      after.stats.backEdges = before.stats.backEdges :=
  canonicalize_eq_of_renames renames_tangle .anyNested

/-! ## Renumbered graphs -/

/-- The graph with other names for its statements: `f` names a statement, and `g`
finds the one that has the name.  Statements that are not kept are left out of the
entries and of all successors. -/
def renumbered (graph : DependencyGraph S) (keep : S → Bool) (f : S → T) (g : T → S)
    (statements : List T) : DependencyGraph T :=
  { statements := statements
    successors := fun name => ((graph.successors (g name)).filter keep).map f
    entries := (graph.entries.filter keep).map f
    info := fun name => graph.info (g name)
    dependence := fun source target => graph.dependence (g source) (g target)
    context := fun source target => graph.context (g source) (g target) }

section Renumbered

variable {graph : DependencyGraph S} {keep : S → Bool} {f : S → T} {g : T → S}
  {statements : List T} {scope : Scope} (hfound : Function.LeftInverse g f)
  (hstatements : ∀ statement, f statement ∈ statements ↔
    statement ∈ graph.statements ∧ keep statement = true)

include hfound hstatements

omit [Hashable S] [Hashable T] [LawfulBEq S] [LawfulBEq T] [BEq S] [BEq T] in
theorem inScope_renumbered {statement : S} :
    (graph.renumbered keep f g statements).InScope scope (f statement) ↔
      keep statement = true ∧ graph.InScope scope statement := by
  simp only [InScope, renumbered, hstatements, hfound statement]
  tauto

omit [Hashable S] [Hashable T] in
/-- When all that is in scope in a list is kept, its names in scope are those of
what is in scope. -/
theorem scoped_renumbered {list : List S}
    (hkept : ∀ statement ∈ list, graph.InScope scope statement → keep statement = true) :
    (((list.filter keep).map f).filter fun name =>
        (graph.renumbered keep f g statements).InScope scope name) =
      (list.filter fun statement => graph.InScope scope statement).map f := by
  rw [List.filter_map, List.filter_filter]
  refine congrArg (List.map f) (List.filter_congr fun statement hmem => ?_)
  rw [Bool.eq_iff_iff, Function.comp_apply, Bool.and_eq_true, decide_eq_true_eq,
    decide_eq_true_eq, inScope_renumbered hfound hstatements]
  have hkept := hkept statement hmem
  tauto

omit [Hashable S] [Hashable T] in
theorem renames_renumbered
    (hkept : ∀ statement, graph.Reachable scope statement → keep statement = true)
    (labeler : Labeler S) :
    Renames f graph scope labeler (graph.renumbered keep f g statements) scope
      fun source target => labeler (g source) (g target) where
  injOn := hfound.injective.injOn
  entries_eq := scoped_renumbered hfound hstatements fun entry hentry hscope =>
    hkept entry ⟨entry, hentry, hscope, Relation.ReflTransGen.refl⟩
  successors_eq := fun statement hreached => by
    have hnext : (graph.renumbered keep f g statements).successors (f statement) =
        ((graph.successors statement).filter keep).map f := by
      simp only [renumbered, hfound statement]
    rw [scopedSuccessors, hnext]
    exact scoped_renumbered hfound hstatements fun next hnext hscope =>
      hkept next (reachable_of_mem_scopedSuccessors hreached
        (mem_scopedSuccessors.mpr ⟨hnext, hscope⟩))
  method_eq := fun statement _ => by simp only [renumbered, hfound statement]
  className_eq := fun statement _ => by simp only [renumbered, hfound statement]
  position_eq := fun statement _ => by simp only [renumbered, hfound statement]
  label_eq := fun source target _ _ _ => by simp only [hfound source, hfound target]
  context_eq := fun source target _ _ _ => by simp only [renumbered, hfound source, hfound target]

/-- **Neither numbers nor unreached statements show.**  The canonical graph stays the
same when the statements are listed and numbered anew, and when some to which no path
in scope leads are left out; so it does when such statements are added. -/
theorem canonicalize_renumbered
    (hkept : ∀ statement, graph.Reachable scope statement → keep statement = true)
    (policy : BackEdgePolicy) (labeler : Labeler S) :
    let before := graph.canonicalize scope policy labeler
    let after := (graph.renumbered keep f g statements).canonicalize scope policy
      fun source target => labeler (g source) (g target)
    after.vertices = before.vertices ∧ after.edges = before.edges ∧
      after.stats.reached = before.stats.reached ∧
      after.stats.keptEdges = before.stats.keptEdges ∧
      after.stats.backEdges = before.stats.backEdges := by
  intro before after
  obtain ⟨forest, hsearched⟩ := graph.exists_searched scope
  have hrenames := renames_renumbered hfound hstatements hkept labeler
  exact ⟨hrenames.vertices_eq hsearched policy, hrenames.edges_eq hsearched policy,
    hrenames.reached_eq hsearched policy, hrenames.keptEdges_eq hsearched policy,
    hrenames.backEdges_eq hsearched policy⟩

end Renumbered

/-- What the scope hides and what lies behind it is taken out of the detour, and the
statement that is left gets another number. -/
example :
    let scope := ({} : LoaderScope).toScope
    let shorter := detour.renumbered (· == 0) (· + 5) (· - 5) [5]
    (shorter.canonicalize scope .anyNested shorter.dependence).vertices =
      (detour.canonicalize scope .anyNested detour.dependence).vertices := by
  intro scope shorter
  have hfound : Function.LeftInverse (· - 5) (· + 5) := fun number => Nat.add_sub_cancel number 5
  have hstatements : ∀ statement, statement + 5 ∈ [5] ↔
      statement ∈ detour.statements ∧ (statement == 0) = true := by
    intro statement
    simp [detour]
    omega
  have hkept : ∀ statement, detour.Reachable scope statement → (statement == 0) = true :=
    fun statement hreached => beq_iff_eq.mpr (eq_zero_of_reachable_detour hreached)
  obtain ⟨hvertices, -⟩ :=
    canonicalize_renumbered hfound hstatements hkept .anyNested detour.dependence
  exact hvertices

end ProgramGraphs.DependencyGraph
