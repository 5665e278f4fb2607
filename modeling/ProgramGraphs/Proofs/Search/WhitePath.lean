import ProgramGraphs.Proofs.Search.Numbering

/-!
# Nested ranks and white paths

The ranks of a node by discovery and by finish make an interval.  The interval
of one node lies inside that of another exactly when a path leads from the
other node to the first one on which nothing was discovered before the path
begins (`rankBy_white_path`).  So the nodes inside an interval are those that
were white when it opened and could be reached through white nodes.

## Strategy

Ranks are places in the orders of a forest, and intervals nest where one node
lies under another (`Forest.under_iff_nested`).

* Down the forest, every node on the way lies under the first one, so it was
  discovered later (`Grows.nested_of_leads`).
* Along a path, an edge leads either to a node that is finished earlier or up,
  to a node that its source lies under.  What a node lies under forms a chain
  (`Forest.Under.comparable`), so an edge that leads up beyond the first node of
  the path ends at a node discovered before it.
-/

namespace ProgramGraphs

variable {S : Type}

namespace Forest

/-- Of two nodes that a third one lies under, one lies under the other. -/
theorem Under.comparable {forest : Forest S} (hdistinct : forest.Distinct) {node first second : S}
    (hfirst : forest.Under node first) (hsecond : forest.Under node second) :
    forest.Under first second ∨ forest.Under second first := by
  induction forest with
  | empty => exact hfirst.elim
  | tree root below rest ihBelow ihRest =>
      obtain ⟨hbelow, hrest, hrootBelow, hrootRest, hdisjoint⟩ := distinct_tree.mp hdistinct
      -- a node stands in one of the trees only
      have hbelowRest : ∀ {upper lower}, below.Under node upper → ¬ rest.Under node lower :=
        fun hupper hlower => hdisjoint node hupper.mem.1 hlower.mem.1
      have hrootedRest : ∀ {lower}, node = root ∨ node ∈ below → ¬ rest.Under node lower := by
        rintro lower (rfl | hnode) hlower
        · exact hrootRest hlower.mem.1
        · exact hdisjoint node hnode hlower.mem.1
      have hunderRoot : ∀ {lower}, below.Under node lower →
          (tree root below rest).Under lower root :=
        fun hlower => Or.inl ⟨rfl, Or.inr hlower.mem.2⟩
      rcases hfirst with ⟨rfl, hnode⟩ | hfirst | hfirst <;>
        rcases hsecond with ⟨heq, hnode'⟩ | hsecond | hsecond
      · exact Or.inl (Or.inl ⟨heq, Or.inl rfl⟩)
      · exact Or.inr (hunderRoot hsecond)
      · exact absurd hsecond (hrootedRest hnode)
      · exact Or.inl (heq ▸ hunderRoot hfirst)
      · exact (ihBelow hbelow hfirst hsecond).imp (Or.inr ∘ Or.inl) (Or.inr ∘ Or.inl)
      · exact absurd hsecond (hbelowRest hfirst)
      · exact absurd hfirst (hrootedRest hnode')
      · exact absurd hfirst (hbelowRest hsecond)
      · exact (ihRest hrest hfirst hsecond).imp (Or.inr ∘ Or.inr) (Or.inr ∘ Or.inr)

end Forest

theorem DepthFirst.Interval.Inside.trans {inner middle outer : Interval}
    (hinner : inner.Inside middle) (houter : middle.Inside outer) : inner.Inside outer :=
  ⟨houter.1.trans hinner.1, hinner.2.trans houter.2⟩

namespace Grows

variable [BEq S] [LawfulBEq S] {successors : S → List S} {white : Set S} {pending : List S}
  {forest : Forest S} {inner outer : S}

/-- What is reached down the forest is nested in the node where the way begins. -/
theorem nested_of_leads (hgrows : Grows successors white pending forest)
    (hpath : Relation.ReflTransGen (Leads successors forest) outer inner) :
    forest.Nested inner outer := by
  induction hpath with
  | refl => exact ⟨Nat.le_refl _, Nat.le_refl _⟩
  | tail _ hleads ih =>
      obtain ⟨hinner, hparent⟩ := hleads.2.1.mem
      exact ((Forest.under_iff_nested hgrows.distinct hinner hparent).mp hleads.2.1).trans ih

/-- An edge out of what is nested in a node stays there, unless it leads to a
node that was discovered before. -/
theorem nested_of_edge (hgrows : Grows successors white pending forest) {next : S}
    (hinner : inner ∈ forest) (houter : outer ∈ forest) (hnext : next ∈ forest)
    (hnested : forest.Nested inner outer) (hedge : next ∈ successors inner)
    (hlater : forest.preorder.idxOf outer ≤ forest.preorder.idxOf next) :
    forest.Nested next outer := by
  rcases hgrows.under_or_finished_before hinner hedge (hgrows.mem_white hnext) with hup | hlt
  · have hunder := (Forest.under_iff_nested hgrows.distinct hinner houter).mpr hnested
    rcases hup.comparable hgrows.distinct hunder with hbelow | habove
    · exact (Forest.under_iff_nested hgrows.distinct hnext houter).mp hbelow
    · -- the edge leads up to the outer node itself
      have hle := ((Forest.under_iff_nested hgrows.distinct houter hnext).mp habove).1
      have heq : next = outer := (List.idxOf_inj hnext).mp (Nat.le_antisymm hle hlater)
      exact heq ▸ ⟨Nat.le_refl _, Nat.le_refl _⟩
  · exact ⟨hlater, (Nat.le_of_lt hlt).trans hnested.2⟩

/-- **White paths.**  A node is nested in another one exactly when a path leads
there through nodes discovered no earlier than that one. -/
theorem nested_iff_path (hgrows : Grows successors white pending forest)
    (hinner : inner ∈ forest) (houter : outer ∈ forest) :
    forest.Nested inner outer ↔ Relation.ReflTransGen
      (fun node next => next ∈ successors node ∧ next ∈ forest ∧
        forest.preorder.idxOf outer ≤ forest.preorder.idxOf next) outer inner := by
  constructor
  · intro hnested
    have hpath := hgrows.path_of_under
      ((Forest.under_iff_nested hgrows.distinct hinner houter).mpr hnested)
    clear hinner hnested
    induction hpath with
    | refl => exact .refl
    | tail hpath hleads ih =>
        refine ih.tail ⟨hleads.1, hleads.2.1.mem.1, ?_⟩
        exact (hgrows.nested_of_leads (hpath.tail hleads)).1
  · intro hpath
    clear hinner
    have hnested : inner ∈ forest ∧ forest.Nested inner outer := by
      induction hpath with
      | refl => exact ⟨houter, Nat.le_refl _, Nat.le_refl _⟩
      | tail _ hstep ih =>
          obtain ⟨hedge, hnext, hlater⟩ := hstep
          exact ⟨hnext, hgrows.nested_of_edge ih.1 houter hnext ih.2 hedge hlater⟩
    exact hnested.2

end Grows

namespace DepthFirst

variable [BEq S] [Hashable S]

/-- The two rankings of the nodes that a search reaches. -/
def rankings (successors : S → List S) (roots : List S) : Ranks S :=
  ⟨rankBy .discover successors roots, rankBy .finish successors roots⟩

/-- An edge to a node whose discovery rank is not below the given one. -/
def StepsNoEarlier (successors : S → List S) (table : Ranks S) (rank : Nat) (node next : S) :
    Prop :=
  next ∈ successors node ∧
    ∃ interval, table.interval? next = some interval ∧ rank ≤ interval.discover

variable [LawfulBEq S] {successors : S → List S} {roots : List S} {forest : Forest S}

/-- The rankings of a search give the nodes of its forest their intervals. -/
theorem interval?_rankings (hgrows : Grows successors Set.univ roots forest) (node : S) :
    (rankings successors roots).interval? node =
      if node ∈ forest then some (forest.interval node) else none := by
  rw [rankings, rankBy_of_grows hgrows, rankBy_of_grows hgrows]
  exact interval?_eq hgrows.distinct node

/-- **White-path law.**  Both rankings of a search together give an interval to
each node that the roots lead to, and to no other.  The interval of `u` lies
inside that of `v` exactly when a path leads from `v` to `u` through nodes
discovered no earlier than `v`.  An edge to a node discovered later leads to one
that is finished earlier. -/
theorem rankBy_white_path (hfinite : (reached successors roots).Finite) :
    (∀ node, (∃ interval, (rankings successors roots).interval? node = some interval) ↔
      node ∈ reached successors roots) ∧
    (∀ u v inner outer, (rankings successors roots).interval? u = some inner →
      (rankings successors roots).interval? v = some outer →
        (inner.Inside outer ↔ Relation.ReflTransGen
          (StepsNoEarlier successors (rankings successors roots) outer.discover) v u)) ∧
    ∀ u v source, (rankings successors roots).interval? u = some source → v ∈ successors u →
      ∃ target, (rankings successors roots).interval? v = some target ∧
        (source.discover < target.discover → target.finish < source.finish) := by
  obtain ⟨forest, hgrows⟩ := exists_grows hfinite
  have hsome : ∀ node interval, (rankings successors roots).interval? node = some interval ↔
      node ∈ forest ∧ forest.interval node = interval := by
    intro node interval
    rw [interval?_rankings hgrows]
    by_cases hmem : node ∈ forest <;> simp [hmem]
  refine ⟨fun node => ?_, ?_, ?_⟩
  · rw [← mem_iff_reached hgrows]
    simp [hsome]
  · intro u v inner outer hinner houter
    obtain ⟨hu, rfl⟩ := (hsome u inner).mp hinner
    obtain ⟨hv, rfl⟩ := (hsome v outer).mp houter
    have hstep : StepsNoEarlier successors (rankings successors roots)
        (forest.interval v).discover = fun node next => next ∈ successors node ∧ next ∈ forest ∧
          forest.preorder.idxOf v ≤ forest.preorder.idxOf next := by
      funext node next
      simp [StepsNoEarlier, hsome, Forest.interval]
    rw [hstep]
    exact hgrows.nested_iff_path hu hv
  · intro u v source hsource hedge
    obtain ⟨hu, rfl⟩ := (hsome u source).mp hsource
    have hv : v ∈ forest := hgrows.closed hu hedge (Set.mem_univ v)
    refine ⟨forest.interval v, (hsome v _).mpr ⟨hv, rfl⟩, fun hlt => ?_⟩
    rcases hgrows.under_or_finished_before hu hedge (Set.mem_univ v) with hunder | hbefore
    · have hle := ((Forest.under_iff_nested hgrows.distinct hu hv).mp hunder).1
      exact absurd hlt (Nat.not_lt.mpr hle)
    · exact hbefore

/-- The second node of the chain leads to the third through nodes discovered
later, and the step back is no such path. -/
theorem rankBy_white_path_looped :
    (reached looped [0, 2]).Finite ∧
      (rankings looped [0, 2]).interval? 1 = some ⟨1, 2⟩ ∧
      (rankings looped [0, 2]).interval? 2 = some ⟨2, 1⟩ ∧
      Relation.ReflTransGen (StepsNoEarlier looped (rankings looped [0, 2]) 1) 1 2 ∧
      ¬ Relation.ReflTransGen (StepsNoEarlier looped (rankings looped [0, 2]) 2) 2 1 := by
  have hfinite := finite_reached_of_grows grows_looped
  obtain ⟨-, hpath, -⟩ := rankBy_white_path hfinite
  have hsecond := interval?_rankings grows_looped 1
  have hthird := interval?_rankings grows_looped 2
  exact ⟨hfinite, hsecond, hthird, (hpath 2 1 _ _ hthird hsecond).mp (by decide),
    fun hback => absurd ((hpath 1 2 _ _ hsecond hthird).mpr hback) (by decide)⟩

end DepthFirst

end ProgramGraphs
