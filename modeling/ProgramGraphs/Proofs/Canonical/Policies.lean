import ProgramGraphs.Proofs.Canonical.Acyclic

/-!
# The two back-edge policies compared

Both policies search the graph in the same way, so they give the same vertices
and visit the same links; they differ in which nested links they drop.  The
weaker one keeps those between statements of different methods
(`Searched.recurs_eq`), and the edges of the stricter one stand among its edges
in the same order.

Each link that only the weaker policy keeps is closed to a cycle by edges that
both of them emit, and without such a link the two results have the same edges.
So the weaker policy leaves a cycle exactly when it drops fewer links
(`canonicalize_sameMethod_compared`).
-/

namespace ProgramGraphs.DependencyGraph

variable {S : Type} [BEq S] [Hashable S] [LawfulBEq S]

/-- Whether a link leads back to a statement that the search was still busy with
and that belongs to another method: to one of another name, or of a class with
another descriptor. -/
def recurs (graph : DependencyGraph S) (scope : Scope) (link : S × S) : Bool :=
  let ranks := (graph.traversal scope).ranks
  match ranks.interval? link.1, ranks.interval? link.2 with
  | some source, some target =>
    target.discover ≤ source.discover && source.finish ≤ target.finish &&
      ((graph.info link.1).method != (graph.info link.2).method ||
        (graph.info link.1).declaringClass.name != (graph.info link.2).declaringClass.name)
  | _, _ => false

omit [Hashable S] [LawfulBEq S] in
/-- What the stricter policy keeps, every policy keeps. -/
theorem kept_of_kept_anyNested {graph : DependencyGraph S} {policy : BackEdgePolicy}
    {forest : Forest S} {link : S × S} (hkept : (!graph.drops .anyNested forest link) = true) :
    (!graph.drops policy forest link) = true := by
  obtain ⟨source, target⟩ := link
  rw [Bool.not_eq_true', ← Bool.not_eq_true] at hkept ⊢
  exact fun hdropped => hkept (drops_iff.mpr ⟨(drops_iff.mp hdropped).1, nofun⟩)

/-- Of the elements that pass a test, those that pass a stricter one come first
and the others last. -/
theorem filter_perm_append {A : Type} {list : List A} {strict weak : A → Bool}
    (himp : ∀ a ∈ list, strict a = true → weak a = true) :
    (list.filter weak).Perm (list.filter strict ++ list.filter fun a => weak a && !strict a) := by
  have hstrict : (list.filter weak).filter strict = list.filter strict := by
    rw [List.filter_filter]
    refine List.filter_congr fun a ha => ?_
    cases hcase : strict a with
    | false => rfl
    | true => rw [himp a ha hcase, Bool.and_true]
  have hrest : (list.filter weak).filter (fun a => !strict a) =
      list.filter fun a => weak a && !strict a := by
    rw [List.filter_filter]
    exact List.filter_congr fun a _ => Bool.and_comm _ _
  have hperm := List.filter_append_perm strict (list.filter weak)
  rw [hstrict, hrest] at hperm
  exact hperm.symm

namespace Searched

variable {graph : DependencyGraph S} {scope : Scope} {forest : Forest S}

/-- A link recurs when the stricter policy drops it and the weaker one does not. -/
theorem recurs_eq (hsearched : graph.Searched scope forest) {link : S × S}
    (hlink : link ∈ graph.links scope) :
    graph.recurs scope link =
      (graph.drops .anyNested forest link && !graph.drops .sameMethod forest link) := by
  obtain ⟨source, target⟩ := link
  obtain ⟨hsource, -, htarget⟩ := hsearched.mem_links.mp hlink
  unfold recurs
  simp only [hsearched.traversal_eq]
  rw [DepthFirst.interval?_eq hsearched.grows.distinct,
    DepthFirst.interval?_eq hsearched.grows.distinct, if_pos hsource, if_pos htarget,
    Bool.eq_iff_iff]
  simp only [Bool.and_eq_true, Bool.or_eq_true, Bool.not_eq_true', ← Bool.not_eq_true, drops_iff,
    bne_iff_ne, decide_eq_true_eq]
  constructor
  · rintro ⟨hnested, hdiffer⟩
    refine ⟨⟨hnested, fun hpolicy => BackEdgePolicy.noConfusion hpolicy⟩, ?_⟩
    rintro ⟨-, hsame⟩
    obtain ⟨hmethod, hclass⟩ := hsame trivial
    exact hdiffer.elim (fun hne => hne hmethod) (fun hne => hne hclass)
  · rintro ⟨⟨hnested, -⟩, hkept⟩
    refine ⟨hnested, ?_⟩
    by_contra hsame
    push Not at hsame
    exact hkept ⟨hnested, fun _ => hsame⟩

/-- The weaker policy keeps the links that the stricter one keeps, and those
that recur. -/
theorem keptLinks_perm (hsearched : graph.Searched scope forest) :
    (graph.keptLinks scope .sameMethod forest).Perm
      (graph.keptLinks scope .anyNested forest ++
        (graph.links scope).filter (graph.recurs scope)) := by
  have hrecurs : (graph.links scope).filter (graph.recurs scope) =
      (graph.links scope).filter fun link =>
        !graph.drops .sameMethod forest link && !!graph.drops .anyNested forest link :=
    List.filter_congr fun link hlink => by
      rw [hsearched.recurs_eq hlink, Bool.not_not, Bool.and_comm]
  rw [hrecurs]
  exact filter_perm_append fun link _ hkept => kept_of_kept_anyNested hkept

theorem keptLinks_sublist :
    (graph.keptLinks scope .anyNested forest).Sublist
      (graph.keptLinks scope .sameMethod forest) :=
  List.monotone_filter_right _ fun _ hkept => kept_of_kept_anyNested hkept

/-- Every link is kept or dropped. -/
theorem keptEdges_add_backEdges (hsearched : graph.Searched scope forest)
    (policy : BackEdgePolicy) (labeler : Labeler S) :
    (graph.canonicalize scope policy labeler).stats.keptEdges +
      (graph.canonicalize scope policy labeler).stats.backEdges = (graph.links scope).length := by
  rw [keptEdges_eq, hsearched.edges_eq, List.length_map, hsearched.backEdges_eq, keptLinks,
    Nat.add_comm]
  exact (List.length_eq_length_filter_add _).symm

/-- The weaker policy emits the edges of the stricter one, and besides them those
of the links that recur. -/
theorem edges_perm (hsearched : graph.Searched scope forest) (labeler : Labeler S) :
    (graph.canonicalize scope .sameMethod labeler).edges.Perm
      ((graph.canonicalize scope .anyNested labeler).edges ++
        ((graph.links scope).filter (graph.recurs scope)).map
          (graph.canonicalLink scope labeler)) := by
  rw [hsearched.edges_eq, hsearched.edges_eq, ← List.map_append]
  exact hsearched.keptLinks_perm.map _

/-- The weaker policy leaves a cycle exactly when some link recurs. -/
theorem cyclic_sameMethod_iff (hsearched : graph.Searched scope forest) (labeler : Labeler S) :
    Cyclic (graph.canonicalize scope .sameMethod labeler).Adjacent ↔
      ∃ link ∈ graph.links scope, graph.recurs scope link = true := by
  constructor
  · intro hcycle
    by_contra hnone
    have hempty : (graph.links scope).filter (graph.recurs scope) = [] :=
      List.filter_eq_nil_iff.mpr fun link hlink hrecurs => hnone ⟨link, hlink, hrecurs⟩
    have hperm := hsearched.edges_perm labeler
    rw [hempty, List.map_nil, List.append_nil] at hperm
    have hsame : (graph.canonicalize scope .sameMethod labeler).Adjacent =
        (graph.canonicalize scope .anyNested labeler).Adjacent := by
      funext source target
      simp only [CanonicalGraph.Adjacent, hperm.mem_iff]
    exact hsearched.not_cyclic labeler (hsame ▸ hcycle)
  · rintro ⟨⟨source, target⟩, hlink, hrecurs⟩
    rw [hsearched.recurs_eq hlink, Bool.and_eq_true, Bool.not_eq_true'] at hrecurs
    obtain ⟨hnested, hkept⟩ := hrecurs
    exact ⟨graph.number scope source, Relation.TransGen.head'
      ((hsearched.adjacent_iff hlink).mpr hkept)
      (hsearched.path_of_nested hlink (drops_iff.mp hnested).1)⟩

end Searched

/-- **The policies differ in the links that recur.**  Both give the same
vertices and account for the same links.  The weaker policy emits the edges of
the stricter one in their order, and besides them exactly those of the links
that recur; it leaves a cycle exactly when it drops fewer links. -/
theorem canonicalize_sameMethod_compared (graph : DependencyGraph S) (scope : Scope)
    (labeler : Labeler S) :
    let strict := graph.canonicalize scope .anyNested labeler
    let weak := graph.canonicalize scope .sameMethod labeler
    let recurring := ((graph.links scope).filter (graph.recurs scope)).map
      (graph.canonicalLink scope labeler)
    weak.vertices = strict.vertices ∧
      weak.stats.reached = strict.stats.reached ∧
      strict.edges.Sublist weak.edges ∧
      weak.edges.Perm (strict.edges ++ recurring) ∧
      strict.edges.Disjoint recurring ∧
      weak.stats.keptEdges + weak.stats.backEdges =
        strict.stats.keptEdges + strict.stats.backEdges ∧
      weak.hasCycle? = some (decide (weak.stats.backEdges < strict.stats.backEdges)) := by
  intro strict weak recurring
  obtain ⟨forest, hsearched⟩ := graph.exists_searched scope
  have hsublist : strict.edges.Sublist weak.edges := by
    rw [hsearched.edges_eq, hsearched.edges_eq]
    exact Searched.keptLinks_sublist.map _
  have hperm : weak.edges.Perm (strict.edges ++ recurring) := hsearched.edges_perm labeler
  have htotal : weak.stats.keptEdges + weak.stats.backEdges =
      strict.stats.keptEdges + strict.stats.backEdges := by
    rw [hsearched.keptEdges_add_backEdges, hsearched.keptEdges_add_backEdges]
  refine ⟨rfl, rfl, hsublist, hperm, ?_, htotal, ?_⟩
  · intro edge hstrict hrecurring
    obtain ⟨link, hlink, hkept, rfl⟩ := hsearched.mem_edges_iff.mp hstrict
    obtain ⟨other, hother, heq⟩ := List.mem_map.mp hrecurring
    obtain ⟨hotherLink, hrecurs⟩ := List.mem_filter.mp hother
    obtain rfl := (hsearched.canonicalLink_inj hotherLink).mp heq
    rw [hsearched.recurs_eq hlink, hkept, Bool.false_and] at hrecurs
    exact Bool.false_ne_true hrecurs
  · -- the weaker policy drops as many links less as there are recurring ones
    have hcount : weak.stats.backEdges < strict.stats.backEdges ↔ 0 < recurring.length := by
      have hlength := hperm.length_eq
      rw [List.length_append] at hlength
      have hweak : weak.stats.keptEdges = weak.edges.length := keptEdges_eq ..
      have hstrict : strict.stats.keptEdges = strict.edges.length := keptEdges_eq ..
      omega
    have hsome : 0 < recurring.length ↔
        ∃ link ∈ graph.links scope, graph.recurs scope link = true := by
      rw [List.length_map, List.length_pos_iff_exists_mem]
      exact exists_congr fun link => List.mem_filter
    obtain ⟨answer, hanswer, hcyclic⟩ := hsearched.hasCycle?_eq .sameMethod labeler
    rw [hanswer, Option.some.injEq, Bool.eq_iff_iff, hcyclic, decide_eq_true_eq, hcount, hsome]
    exact hsearched.cyclic_sameMethod_iff labeler

/-- Two methods that call each other. -/
def recursion : DependencyGraph Nat :=
  { statements := [0, 1]
    successors := fun statement => if statement = 0 then [1] else [0]
    entries := [0]
    info := fun statement => { method := if statement = 0 then "ping" else "pong" }
    dependence := fun _ _ => none
    context := fun _ _ => none }

theorem traversal_recursion : recursion.traversal (fun _ => true) = ⟨[0, 1], [1, 0]⟩ := by
  simp [recursion, traversal, inScope, DepthFirst.search, DepthFirst.visitRoot, DepthFirst.follow]

theorem canonicalize_recursion_compared :
    let strict := recursion.canonicalize (fun _ => true) .anyNested recursion.dependence
    let weak := recursion.canonicalize (fun _ => true) .sameMethod recursion.dependence
    let recurring := ((recursion.links fun _ => true).filter (recursion.recurs fun _ => true)).map
      (recursion.canonicalLink (fun _ => true) recursion.dependence)
    weak.vertices = strict.vertices ∧ strict.edges.Sublist weak.edges ∧
      strict.edges = [⟨0, 1, none, none⟩] ∧ recurring = [⟨1, 0, none, none⟩] ∧
      weak.edges.Perm (strict.edges ++ recurring) ∧
      weak.hasCycle? = some (decide (weak.stats.backEdges < strict.stats.backEdges)) ∧
      weak.hasCycle? = some true := by
  intro strict weak recurring
  obtain ⟨hvertices, -, hsublist, hperm, -, htotal, hcycle⟩ :=
    canonicalize_sameMethod_compared recursion (fun _ => true) recursion.dependence
  have hstrict : strict.edges = [⟨0, 1, none, none⟩] := edges_of_traversal traversal_recursion ..
  have hweak : weak.edges = [⟨1, 0, none, none⟩, ⟨0, 1, none, none⟩] :=
    edges_of_traversal traversal_recursion ..
  have hrecurring : recurring = [⟨1, 0, none, none⟩] := by
    rw [hstrict, hweak, List.singleton_append] at hperm
    exact List.perm_singleton.mp ((List.perm_cons _).mp ((List.Perm.swap ..).trans hperm)).symm
  -- one edge more is kept, so one link less is dropped
  have hless : weak.stats.backEdges < strict.stats.backEdges := by
    have htotal : weak.stats.keptEdges + weak.stats.backEdges =
        strict.stats.keptEdges + strict.stats.backEdges := htotal
    have hkeptStrict : strict.stats.keptEdges = 1 :=
      (keptEdges_eq ..).trans (congrArg List.length hstrict)
    have hkeptWeak : weak.stats.keptEdges = 2 :=
      (keptEdges_eq ..).trans (congrArg List.length hweak)
    omega
  exact ⟨hvertices, hsublist, hstrict, hrecurring, hperm, hcycle,
    hcycle.trans (congrArg some (decide_eq_true hless))⟩

end ProgramGraphs.DependencyGraph
