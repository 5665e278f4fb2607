import ProgramGraphs.Proofs.Search.Numbering

/-!
# The numbering search is the recursive one

The textbook search is a recursion: to visit a node, mark it, visit its
successors in turn, and be done with it.  `Visits` is that search as a big-step
relation; it notes the nodes as it enters them and as it is done with them, and
it has at most one outcome (`Visits.unique`).

The loop of `rankBy` keeps the suspended visits as frames of a path.  Both
searches go through the same forest, so the rank of a node is its place in what
the recursion notes (`rankBy_eq_recursive`), and the one ends where the other
does (`exists_visits_iff`).
-/

namespace ProgramGraphs.DepthFirst

variable {S : Type}

/-- What a recursive search has come across. -/
structure Trace (S : Type) where
  visited : Set S := ∅
  /-- The nodes as they were entered. -/
  preorder : List S := []
  /-- The nodes as they were done with. -/
  postorder : List S := []

namespace Trace

/-- The trace after the search has entered a node. -/
def enter (trace : Trace S) (node : S) : Trace S :=
  { trace with
    visited := insert node trace.visited
    preorder := trace.preorder ++ [node] }

/-- The trace after the search is done with a node. -/
def leave (trace : Trace S) (node : S) : Trace S :=
  { trace with postorder := trace.postorder ++ [node] }

/-- The trace of a search that has been through a forest. -/
def through (trace : Trace S) (forest : Forest S) : Trace S :=
  { visited := trace.visited ∪ {node | node ∈ forest}
    preorder := trace.preorder ++ forest.preorder
    postorder := trace.postorder ++ forest.postorder }

theorem through_empty (trace : Trace S) : trace.through .empty = trace := by
  simp [through, Forest.preorder, Forest.postorder]

theorem through_tree (trace : Trace S) (root : S) (below rest : Forest S) :
    trace.through (.tree root below rest) =
      (((trace.enter root).through below).leave root).through rest := by
  have hvisited : trace.visited ∪ {node | node ∈ Forest.tree root below rest} =
      insert root trace.visited ∪ {node | node ∈ below} ∪ {node | node ∈ rest} := by
    ext node
    simp only [Set.mem_union, Set.mem_insert_iff, Set.mem_ofPred_eq, Forest.mem_tree]
    tauto
  rw [through, hvisited]
  simp [through, enter, leave, Forest.preorder, Forest.postorder]

end Trace

/-- The recursive search: nodes are visited in turn, and to visit a new node is
to enter it, to visit its successors and to leave it. -/
inductive Visits (successors : S → List S) : Trace S → List S → Trace S → Prop
  | done (trace : Trace S) : Visits successors trace [] trace
  | skip {trace final : Trace S} {node : S} {nodes : List S}
      (hvisited : node ∈ trace.visited) (hrest : Visits successors trace nodes final) :
      Visits successors trace (node :: nodes) final
  | visit {trace inside final : Trace S} {node : S} {nodes : List S}
      (hnew : node ∉ trace.visited)
      (hbelow : Visits successors (trace.enter node) (successors node) inside)
      (hrest : Visits successors (inside.leave node) nodes final) :
      Visits successors trace (node :: nodes) final

namespace Trace

theorem compl_visited_enter (trace : Trace S) (node : S) :
    (trace.enter node).visitedᶜ = trace.visitedᶜ \ {node} := by
  rw [enter, Set.sdiff_eq, ← Set.compl_union, Set.union_singleton]

theorem compl_visited_through (trace : Trace S) (forest : Forest S) :
    (trace.through forest).visitedᶜ = trace.visitedᶜ \ {node | node ∈ forest} := by
  rw [through, Set.compl_union, Set.sdiff_eq]

/-- What is left after a node and everything below it. -/
theorem compl_visited_tree (trace : Trace S) (root : S) (below : Forest S) :
    (((trace.enter root).through below).leave root).visitedᶜ =
      (trace.visitedᶜ \ {root}) \ {node | node ∈ below} := by
  rw [leave, compl_visited_through, compl_visited_enter]

end Trace

namespace Visits

variable {successors : S → List S} {nodes : List S} {trace final other : Trace S}

/-- **The recursion goes through the forest** that grows from the nodes. -/
theorem of_grows (trace : Trace S) {forest : Forest S}
    (hgrows : Grows successors trace.visitedᶜ nodes forest) :
    Visits successors trace nodes (trace.through forest) := by
  generalize hwhite : trace.visitedᶜ = white at hgrows
  induction hgrows generalizing trace with
  | done =>
      rw [Trace.through_empty]
      exact .done trace
  | @skip white next pending forest hblack _ ih =>
      subst hwhite
      exact .skip (Set.notMem_compl_iff.mp hblack) (ih trace rfl)
  | @visit white next pending below rest hnext _ _ ihBelow ihRest =>
      subst hwhite
      rw [Trace.through_tree]
      exact .visit hnext (ihBelow _ (trace.compl_visited_enter next))
        (ihRest _ (trace.compl_visited_tree next below))

theorem of_grows_univ {forest : Forest S} (hgrows : Grows successors Set.univ nodes forest) :
    Visits successors {} nodes (Trace.through {} forest) :=
  of_grows {} (Set.compl_empty.symm ▸ hgrows)

/-- A recursive search with an outcome grows a forest. -/
theorem exists_grows (hvisits : Visits successors trace nodes final) :
    ∃ forest, Grows successors trace.visitedᶜ nodes forest ∧ trace.through forest = final := by
  induction hvisits with
  | done trace => exact ⟨.empty, .done _, trace.through_empty⟩
  | skip hvisited _ ih =>
      obtain ⟨forest, hgrows, hfinal⟩ := ih
      exact ⟨forest, .skip (Set.notMem_compl_iff.mpr hvisited) hgrows, hfinal⟩
  | @visit trace inside final node nodes hnew _ _ ihBelow ihRest =>
      obtain ⟨below, hbelow, rfl⟩ := ihBelow
      obtain ⟨rest, hrest, rfl⟩ := ihRest
      rw [trace.compl_visited_enter] at hbelow
      rw [trace.compl_visited_tree] at hrest
      exact ⟨.tree node below rest, .visit hnew hbelow hrest, trace.through_tree node below rest⟩

/-- The recursive search has one outcome, for it grows one forest. -/
theorem unique (hvisits : Visits successors trace nodes final)
    (hother : Visits successors trace nodes other) : final = other := by
  obtain ⟨forest, hgrows, rfl⟩ := hvisits.exists_grows
  obtain ⟨otherForest, hotherGrows, rfl⟩ := hother.exists_grows
  rw [hgrows.unique hotherGrows]

end Visits

variable [BEq S] [Hashable S] [LawfulBEq S] {successors : S → List S} {roots : List S}

/-- The recursive search ends where the loop does. -/
theorem exists_visits_iff (order : RankOrder) :
    (∃ final, Visits successors {} roots final) ↔
      (StateTransition.eval (Numbering.step order successors) { roots }).Dom := by
  rw [dom_eval_iff]
  constructor
  · rintro ⟨final, hvisits⟩
    obtain ⟨forest, hgrows, -⟩ := hvisits.exists_grows
    exact finite_reached_of_grows (Set.compl_empty ▸ hgrows)
  · intro hfinite
    obtain ⟨forest, hgrows⟩ := exists_grows hfinite
    exact ⟨_, .of_grows_univ hgrows⟩

/-- **Ranks are places in the recursive search.**  The recursive search from the
roots has an outcome, and only one.  The rank of a node by discovery is its place
in the preorder noted there, its rank by finish the place in the postorder, and
other nodes have none. -/
theorem rankBy_eq_recursive (hfinite : (reached successors roots).Finite) :
    ∃ final, Visits successors {} roots final ∧
      (∀ other, Visits successors {} roots other → other = final) ∧
      (∀ node : S, (rankBy .discover successors roots)[node]? = final.preorder.idxOf? node) ∧
      ∀ node : S, (rankBy .finish successors roots)[node]? = final.postorder.idxOf? node := by
  obtain ⟨forest, hgrows⟩ := exists_grows hfinite
  have hrank : ∀ (order : RankOrder) (node : S),
      (rankBy order successors roots)[node]? = (forest.orderBy order).idxOf? node := by
    intro order node
    rw [rankBy_of_grows hgrows]
    exact getElem?_ranks_eq_idxOf? (hgrows.distinct.nodup_orderBy order) node
  have hvisits := Visits.of_grows_univ hgrows
  exact ⟨_, hvisits, fun other hother => hother.unique hvisits, hrank .discover, hrank .finish⟩

theorem rankBy_eq_recursive_looped :
    (reached looped [0, 2]).Finite ∧
      ∃ final, Visits looped {} [0, 2] final ∧
        final.preorder = [0, 1, 2, 3] ∧ final.postorder = [3, 2, 1, 0] ∧
        (rankBy .discover looped [0, 2])[2]? = some 2 ∧
        (rankBy .finish looped [0, 2])[2]? = some 1 ∧
        (rankBy .finish looped [0, 2])[4]? = none := by
  have hfinite : (reached looped [0, 2]).Finite := finite_reached_of_grows grows_looped
  obtain ⟨final, hvisits, hunique, hdiscover, hfinish⟩ := rankBy_eq_recursive hfinite
  obtain rfl := hunique _ (.of_grows_univ grows_looped)
  refine ⟨hfinite, _, hvisits, rfl, rfl, ?_, ?_, ?_⟩
  · rw [hdiscover]
    rfl
  · rw [hfinish]
    rfl
  · rw [hfinish]
    rfl

end ProgramGraphs.DepthFirst
