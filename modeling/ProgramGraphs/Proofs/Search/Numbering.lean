import Mathlib.Computability.StateTransition
import ProgramGraphs.Search.Numbering
import ProgramGraphs.Proofs.Search.Ranks
import ProgramGraphs.Proofs.Search.Renaming

/-!
# The numbering search ends, and numbers what it reaches

The loop of `rankBy` has no bound, so it is not plain that it ends.  It does
exactly when the roots lead to finitely many nodes (`dom_eval_iff`), and then it
numbers these nodes from zero without gaps, in either order (`rankBy_numbers`).

## Strategy

The loop is a transition system over `Numbering.step`, and its result belongs to
the state in which the system stops (`rankBy_of_mem_eval`).

* **From a forest to the loop.**  When a forest grows from the pending nodes of
  the innermost frame, the system works through that frame: it visits the nodes
  of the forest and numbers them in one of its two orders
  (`Numbering.reaches_of_grows`).  The proof is an induction on the growth, so
  an interrupted frame is just the rest of a list that is still to grow.
* **There is a forest.**  Finitely many nodes can serve as the white nodes of
  `search`, which always ends.  Nodes that are never reached may as well be
  white (`Grows.whiten`), so the same forest grows when every node is.
* **From an end to finitely many nodes.**  A step forgets no node that the
  search came across (`Numbering.Covers.step`).  When nothing is left to try,
  the visited nodes are closed under successors, and they are finitely many.
-/

namespace ProgramGraphs

variable {S : Type}

namespace Forest

@[simp] theorem map_id (forest : Forest S) : forest.map id = forest := by
  induction forest with
  | empty => rfl
  | tree root below rest ihBelow ihRest => rw [map, ihBelow, ihRest, id]

/-- The nodes in the order in which a search ranks them. -/
def orderBy (forest : Forest S) : DepthFirst.RankOrder → List S
  | .discover => forest.preorder
  | .finish => forest.postorder

@[simp] theorem mem_orderBy {forest : Forest S} {order : DepthFirst.RankOrder} {node : S} :
    node ∈ forest.orderBy order ↔ node ∈ forest := by
  cases order with
  | discover => exact mem_preorder
  | finish => exact mem_postorder

theorem Distinct.nodup_orderBy {forest : Forest S} (hdistinct : forest.Distinct)
    (order : DepthFirst.RankOrder) : (forest.orderBy order).Nodup := by
  cases order with
  | discover => exact hdistinct
  | finish => exact hdistinct.nodup_postorder

end Forest

/-- Which of the nodes that a search cannot reach are white makes no difference. -/
theorem Grows.whiten {successors : S → List S} {white other reached : Set S} {pending : List S}
    {forest : Forest S} (hgrows : Grows successors white pending forest)
    (hpending : ∀ node ∈ pending, node ∈ reached)
    (hclosed : ∀ node ∈ reached, ∀ next ∈ successors node, next ∈ reached)
    (hother : ∀ node ∈ reached, node ∈ other ↔ node ∈ white) :
    Grows successors other pending forest := by
  have hmap := hgrows.map (Set.injOn_id reached) hclosed
    (fun node _ => (List.map_id (successors node)).symm) hpending hother
  rwa [List.map_id, Forest.map_id] at hmap

namespace DepthFirst

/-- The nodes to which a path leads from a root. -/
def reached (successors : S → List S) (roots : List S) : Set S :=
  {node | ∃ root ∈ roots,
    Relation.ReflTransGen (fun source target => target ∈ successors source) root node}

theorem root_mem_reached {successors : S → List S} {roots : List S} {root : S}
    (hroot : root ∈ roots) : root ∈ reached successors roots :=
  ⟨root, hroot, Relation.ReflTransGen.refl⟩

theorem next_mem_reached {successors : S → List S} {roots : List S} {node next : S}
    (hnode : node ∈ reached successors roots) (hnext : next ∈ successors node) :
    next ∈ reached successors roots := by
  obtain ⟨root, hroot, hpath⟩ := hnode
  exact ⟨root, hroot, hpath.tail hnext⟩

/-- The roots lead to nothing outside a set that no successor leaves. -/
theorem reached_subset {successors : S → List S} {roots : List S} {nodes : Set S}
    (hroots : ∀ root ∈ roots, root ∈ nodes)
    (hclosed : ∀ node ∈ nodes, ∀ next ∈ successors node, next ∈ nodes) :
    reached successors roots ⊆ nodes := by
  rintro node ⟨root, hroot, hpath⟩
  induction hpath with
  | refl => exact hroots root hroot
  | tail _ hstep ih => exact hclosed _ ih _ hstep

/-- A forest that grows while all nodes are white holds what the roots lead to. -/
theorem mem_iff_reached {successors : S → List S} {roots : List S} {forest : Forest S}
    (hgrows : Grows successors Set.univ roots forest) {node : S} :
    node ∈ forest ↔ node ∈ reached successors roots := by
  simp [hgrows.mem_iff, reached]

theorem finite_reached_of_grows {successors : S → List S} {roots : List S} {forest : Forest S}
    (hgrows : Grows successors Set.univ roots forest) : (reached successors roots).Finite :=
  (List.finite_toSet forest.preorder).subset fun _ hnode =>
    Forest.mem_preorder.mpr ((mem_iff_reached hgrows).mpr hnode)

variable [BEq S] [Hashable S]

/-! ## Numbers of a list -/

section Tables

variable [LawfulBEq S]

theorem foldl_rankNext {nodes : List S} (hnodup : nodes.Nodup) {table : Std.HashMap S Nat}
    (hnew : ∀ node ∈ nodes, node ∉ table) :
    nodes.foldl rankNext table = table.insertMany (nodes.zipIdx table.size) := by
  induction nodes generalizing table with
  | nil => rfl
  | cons node nodes ih =>
      obtain ⟨hnode, hnodup⟩ := List.nodup_cons.mp hnodup
      have hsize : (rankNext table node).size = table.size + 1 := by
        rw [rankNext, Std.HashMap.size_insert, if_neg (hnew node List.mem_cons_self)]
      have hnew' : ∀ other ∈ nodes, other ∉ rankNext table node := by
        intro other hother hmem
        rcases Std.HashMap.mem_insert.mp hmem with heq | hold
        · exact hnode (eq_of_beq heq ▸ hother)
        · exact hnew other (List.mem_cons_of_mem node hother) hold
      rw [List.foldl_cons, ih hnodup hnew', hsize, List.zipIdx_cons, Std.HashMap.insertMany_cons]
      rfl

/-- Numbering the nodes of a list one after another gives each its place. -/
theorem foldl_rankNext_empty {nodes : List S} (hnodup : nodes.Nodup) :
    nodes.foldl rankNext ∅ = ranks nodes :=
  foldl_rankNext hnodup fun _ _ => Std.HashMap.not_mem_empty

theorem getElem?_ranks_eq_idxOf? {order : List S} (hnodup : order.Nodup) (node : S) :
    (ranks order)[node]? = order.idxOf? node := by
  rw [getElem?_ranks hnodup]
  cases hplace : order.idxOf? node with
  | none => exact if_neg (List.idxOf?_eq_none_iff.mp hplace)
  | some place =>
      have hmem : node ∈ order := List.isSome_idxOf?.mp (hplace ▸ rfl)
      rw [if_pos hmem, List.idxOf_eq_getD_idxOf?, hplace, Option.getD_some]

/-- The keys of a table are the given nodes, and its values are the numbers
below their number, each used once. -/
structure Numbers (nodes : Set S) (table : Std.HashMap S Nat) : Prop where
  mem_iff : ∀ node, node ∈ table ↔ node ∈ nodes
  bijOn : Set.BijOn (fun node => table.getD node 0) nodes (Set.Iio nodes.ncard)

theorem numbers_ranks {order : List S} (hnodup : order.Nodup) :
    Numbers {node | node ∈ order} (ranks order) := by
  have hplace : ∀ node ∈ order, (ranks order).getD node 0 = order.idxOf node := by
    intro node hnode
    rw [Std.HashMap.getD_eq_getD_getElem?, getElem?_ranks hnodup, if_pos hnode, Option.getD_some]
  constructor
  · intro node
    rw [Std.HashMap.mem_iff_isSome_getElem?, getElem?_ranks hnodup]
    by_cases hnode : node ∈ order <;> simp [hnode]
  · rw [ncard_of_nodup hnodup]
    refine ⟨fun node hnode => ?_, fun first hfirst second hsecond heq => ?_, fun rank hrank => ?_⟩
    · simp only [Set.mem_Iio, hplace node hnode]
      exact List.idxOf_lt_length_of_mem hnode
    · simp only [hplace first hfirst, hplace second hsecond] at heq
      exact (List.idxOf_inj hfirst).mp heq
    · have hmem : order[rank] ∈ order := List.getElem_mem hrank
      exact ⟨order[rank], hmem, (hplace _ hmem).trans (hnodup.idxOf_getElem rank hrank)⟩

end Tables

/-! ## The loop works through the forest -/

/-- The nodes that a search may still visit. -/
def unvisited (visited : Std.HashSet S) : Set S := {node | node ∉ visited}

theorem notMem_unvisited {visited : Std.HashSet S} {node : S} :
    node ∉ unvisited visited ↔ node ∈ visited := not_not

theorem unvisited_empty : unvisited (∅ : Std.HashSet S) = Set.univ := by
  ext node
  simp [unvisited]

section Unvisited

variable [LawfulBEq S]

theorem unvisited_insert (visited : Std.HashSet S) (node : S) :
    unvisited (visited.insert node) = unvisited visited \ {node} := by
  ext other
  simp only [unvisited, Set.mem_ofPred_eq, Set.mem_sdiff, Set.mem_singleton_iff,
    Std.HashSet.mem_insert, beq_iff_eq, not_or, eq_comm (a := node)]
  exact and_comm

theorem unvisited_foldl (nodes : List S) (visited : Std.HashSet S) :
    unvisited (nodes.foldl .insert visited) = unvisited visited \ {node | node ∈ nodes} := by
  induction nodes generalizing visited with
  | nil => simp
  | cons node nodes ih =>
      have hnodes : {other | other ∈ node :: nodes} = {node} ∪ {other | other ∈ nodes} :=
        Set.ext fun other => List.mem_cons
      rw [List.foldl_cons, ih, unvisited_insert, hnodes, Set.sdiff_sdiff]

/-- What is left after a node and everything below it. -/
theorem unvisited_tree (visited : Std.HashSet S) (root : S) (below : Forest S) :
    unvisited (below.preorder.foldl .insert (visited.insert root)) =
      (unvisited visited \ {root}) \ {node | node ∈ below} := by
  rw [unvisited_foldl, unvisited_insert]
  rfl

end Unvisited

namespace Numbering

/-- The state of a search that has been through a forest. -/
def through (order : RankOrder) (state : Numbering S) (forest : Forest S) : Numbering S :=
  { state with
    visited := forest.preorder.foldl .insert state.visited
    ranks := (forest.orderBy order).foldl rankNext state.ranks }

theorem through_empty (order : RankOrder) (state : Numbering S) :
    state.through order .empty = state := by
  cases order <;> rfl

theorem through_tree (order : RankOrder) (state : Numbering S) (root : S)
    (below rest : Forest S) :
    state.through order (.tree root below rest) =
      (((state.enter order root).through order below).leave order root).through order rest := by
  cases order <;>
    simp [through, enter, leave, Forest.orderBy, Forest.preorder, Forest.postorder]

section Visit

variable (order : RankOrder) (successors : S → List S) {state : Numbering S} {node : S}

theorem visit_of_mem (hvisited : node ∈ state.visited) :
    state.visit order successors node = state := if_pos hvisited

theorem visit_of_notMem (hnew : node ∉ state.visited) :
    state.visit order successors node =
      { state.enter order node with path := ⟨node, successors node⟩ :: state.path } :=
  if_neg hnew

end Visit

variable [LawfulBEq S] {successors : S → List S} {forest : Forest S} (order : RankOrder)

/-- **The loop works through the innermost frame**, and goes through the forest
that grows from what is pending there. -/
theorem reaches_of_grows (state : Numbering S) {pending : List S}
    (hgrows : Grows successors (unvisited state.visited) pending forest) (node : S)
    (outer : List (Frame S)) :
    StateTransition.Reaches (step order successors)
      { state with path := ⟨node, pending⟩ :: outer }
      { state.through order forest with path := ⟨node, []⟩ :: outer } := by
  generalize hwhite : unvisited state.visited = white at hgrows
  induction hgrows generalizing state node outer with
  | done =>
      rw [through_empty]
      exact .refl
  | @skip white next pending forest hblack _ ih =>
      have hvisited : next ∈ state.visited := notMem_unvisited.mp (hwhite ▸ hblack)
      exact (ih state node outer hwhite).head
        (congrArg some (visit_of_mem order successors hvisited))
  | @visit white next pending below rest hnext _ _ ihBelow ihRest =>
      subst hwhite
      -- the frame of the new node first, then the frame that it interrupted
      have hinside := ihBelow (state.enter order next) next (⟨node, pending⟩ :: outer)
        (unvisited_insert state.visited next)
      have houtside := ihRest (((state.enter order next).through order below).leave order next)
        node outer (unvisited_tree state.visited next below)
      rw [through_tree]
      exact ((hinside.tail rfl).trans houtside).head
        (congrArg some (visit_of_notMem order successors hnext))

/-- On an empty path, the loop goes through the forest that grows from the roots. -/
theorem reaches_of_grows_roots (state : Numbering S) {roots : List S}
    (hgrows : Grows successors (unvisited state.visited) roots forest) :
    StateTransition.Reaches (step order successors)
      { state with roots, path := [] }
      { state.through order forest with roots := [], path := [] } := by
  generalize hwhite : unvisited state.visited = white at hgrows
  induction hgrows generalizing state with
  | done =>
      rw [through_empty]
      exact .refl
  | @skip white root roots forest hblack _ ih =>
      have hvisited : root ∈ state.visited := notMem_unvisited.mp (hwhite ▸ hblack)
      exact (ih state hwhite).head (congrArg some (visit_of_mem order successors hvisited))
  | @visit white root roots below rest hroot hbelow _ _ ihRest =>
      subst hwhite
      rw [← unvisited_insert] at hbelow
      have hinside := reaches_of_grows order { state.enter order root with roots } hbelow root []
      have houtside := ihRest (((state.enter order root).through order below).leave order root)
        (unvisited_tree state.visited root below)
      rw [through_tree]
      exact ((hinside.tail rfl).trans houtside).head
        (congrArg some (visit_of_notMem order successors hroot))

end Numbering

/-! ## What the loop returns -/

section Stops

variable {successors : S → List S} {roots : List S} {order : RankOrder}

theorem repeatM_pass (state : Numbering S) :
    repeatM (Numbering.pass order successors) state =
      match state.step order successors with
      | some next => repeatM (Numbering.pass order successors) next
      | none => pure state.ranks := by
  rw [repeatM_eq_of_monadTail, repeatM.body, Numbering.pass]
  cases state.step order successors <;> rfl

/-- The result of the loop belongs to the state in which it stops. -/
theorem rankBy_of_mem_eval {final : Numbering S}
    (hfinal : final ∈ StateTransition.eval (Numbering.step order successors) { roots }) :
    rankBy order successors roots = final.ranks := by
  obtain ⟨hrun, hstop⟩ := StateTransition.mem_eval.mp hfinal
  unfold rankBy
  generalize ({ roots } : Numbering S) = start at hrun ⊢
  induction hrun using Relation.ReflTransGen.head_induction_on with
  | refl => rw [repeatM_pass, hstop, Id.run_pure]
  | @head state next hstep _ ih => rw [repeatM_pass, Option.mem_def.mp hstep, ih]

end Stops

section Results

variable [LawfulBEq S] {successors : S → List S} {roots : List S} {forest : Forest S}

/-- The search stops when it has been through the forest of its roots, and has
then numbered the nodes of the forest. -/
theorem exists_mem_eval (hgrows : Grows successors Set.univ roots forest) (order : RankOrder) :
    ∃ final ∈ StateTransition.eval (Numbering.step order successors) { roots },
      final.ranks = ranks (forest.orderBy order) := by
  have hnumbered := foldl_rankNext_empty (hgrows.distinct.nodup_orderBy order)
  rw [← unvisited_empty] at hgrows
  have hrun := Numbering.reaches_of_grows_roots order { roots } hgrows
  exact ⟨_, StateTransition.mem_eval.mpr ⟨hrun, rfl⟩, hnumbered⟩

/-- The ranks of a search are the places of the nodes in an order of its forest. -/
theorem rankBy_of_grows (hgrows : Grows successors Set.univ roots forest) (order : RankOrder) :
    rankBy order successors roots = ranks (forest.orderBy order) := by
  obtain ⟨final, hfinal, hranks⟩ := exists_mem_eval hgrows order
  rw [rankBy_of_mem_eval hfinal, hranks]

/-- Where the roots lead to finitely many nodes, a forest grows from them. -/
theorem exists_grows (hfinite : (reached successors roots).Finite) :
    ∃ forest, Grows successors Set.univ roots forest := by
  have hwhites : whites (Std.HashSet.ofList hfinite.toFinset.toList) =
      reached successors roots := by
    ext node
    simp [whites]
  obtain ⟨forest, hgrows, -⟩ :=
    search_grows (Std.HashSet.ofList hfinite.toFinset.toList) successors roots
  rw [hwhites] at hgrows
  exact ⟨forest, hgrows.whiten (fun root hroot => root_mem_reached hroot)
    (fun node hnode next hnext => next_mem_reached hnode hnext)
    fun node hnode => ⟨fun _ => hnode, fun _ => Set.mem_univ node⟩⟩

/-- The two orders of `search` are those of two numbering searches through the
white part of the graph. -/
theorem rankBy_filter_white (order : RankOrder) (white : Std.HashSet S) :
    rankBy order (fun node => (successors node).filter (· ∈ white)) (roots.filter (· ∈ white)) =
      match order with
      | .discover => (search white successors roots).ranks.discover
      | .finish => (search white successors roots).ranks.finish := by
  obtain ⟨forest, hgrows, hsearch⟩ := search_grows white successors roots
  have hkept : ∀ nodes : List S, ∀ node ∈ nodes.filter (· ∈ white), node ∈ whites white :=
    fun nodes node hnode => of_decide_eq_true (p := node ∈ white) (List.mem_filter.mp hnode).2
  have hrestrict : Grows (fun node => (successors node).filter (· ∈ white)) (whites white)
      (roots.filter (· ∈ white)) forest :=
    hgrows.restrict fun node (hnode : node ∈ white) => decide_eq_true hnode
  have hscoped : Grows (fun node => (successors node).filter (· ∈ white)) Set.univ
      (roots.filter (· ∈ white)) forest :=
    hrestrict.whiten (hkept roots) (fun node _ => hkept (successors node))
      fun node hnode => ⟨fun _ => hnode, fun _ => Set.mem_univ node⟩
  rw [rankBy_of_grows hscoped, hsearch]
  cases order <;> rfl

end Results

/-! ## When the search ends -/

namespace Numbering

/-- The nodes that are still to be tried. -/
def todo (state : Numbering S) : List S := state.path.flatMap Frame.pending ++ state.roots

/-- The search has been to a node, or still has to try it. -/
def Knows (state : Numbering S) (node : S) : Prop := node ∈ state.visited ∨ node ∈ state.todo

/-- The search knows its roots and all successors of what it has visited. -/
structure Covers (successors : S → List S) (roots : List S) (state : Numbering S) : Prop where
  roots : ∀ root ∈ roots, state.Knows root
  successors : ∀ node ∈ state.visited, ∀ next ∈ successors node, state.Knows next

variable {successors : S → List S} {roots : List S} {order : RankOrder} {state : Numbering S}
  {node : S}

theorem todo_visit_of_notMem (hnew : node ∉ state.visited) :
    (state.visit order successors node).todo = successors node ++ state.todo := by
  rw [visit_of_notMem order successors hnew, todo, List.flatMap_cons, List.append_assoc]
  rfl

variable [LawfulBEq S]

theorem mem_visited_visit {other : S} :
    other ∈ (state.visit order successors node).visited ↔ node = other ∨ other ∈ state.visited := by
  by_cases hvisited : node ∈ state.visited
  · rw [visit_of_mem order successors hvisited, iff_or_self]
    exact fun heq => heq ▸ hvisited
  · rw [visit_of_notMem order successors hvisited]
    simp only [enter, Std.HashSet.mem_insert, beq_iff_eq]

theorem Knows.visit {other : S} (hknows : state.Knows other) :
    (state.visit order successors node).Knows other := by
  refine hknows.imp (fun hvisited => mem_visited_visit.mpr (Or.inr hvisited)) fun htodo => ?_
  by_cases hvisited : node ∈ state.visited
  · rwa [visit_of_mem order successors hvisited]
  · rw [todo_visit_of_notMem hvisited]
    exact List.mem_append_right _ htodo

namespace Covers

/-- To visit a node keeps the search from forgetting it. -/
theorem visit {before : Numbering S} (hcovers : Covers successors roots before)
    (hvisited : state.visited = before.visited)
    (hknows : ∀ other, before.Knows other → node = other ∨ state.Knows other) :
    Covers successors roots (state.visit order successors node) := by
  have hkept : ∀ other, before.Knows other → (state.visit order successors node).Knows other := by
    intro other hother
    rcases hknows other hother with heq | hother
    · exact Or.inl (mem_visited_visit.mpr (Or.inl heq))
    · exact hother.visit
  refine ⟨fun root hroot => hkept root (hcovers.roots root hroot), ?_⟩
  intro other hother next hnext
  by_cases hold : other ∈ state.visited
  · exact hkept next (hcovers.successors other (hvisited ▸ hold) next hnext)
  · obtain rfl : node = other := (mem_visited_visit.mp hother).resolve_right hold
    right
    rw [todo_visit_of_notMem hold]
    exact List.mem_append_left _ hnext

/-- **No step forgets a node** that the search came across. -/
theorem step {next : Numbering S} (hcovers : Covers successors roots state)
    (hstep : state.step order successors = some next) : Covers successors roots next := by
  obtain ⟨left, path, visited, table⟩ := state
  match path, left with
  | ⟨node, child :: pending⟩ :: outer, left =>
      obtain rfl := Option.some.inj hstep
      exact hcovers.visit rfl fun other => by simp [Knows, todo, or_left_comm, eq_comm]
  | ⟨node, []⟩ :: outer, left =>
      obtain rfl := Option.some.inj hstep
      exact ⟨hcovers.roots, hcovers.successors⟩
  | [], root :: left =>
      obtain rfl := Option.some.inj hstep
      exact hcovers.visit rfl fun other => by simp [Knows, todo, or_left_comm, eq_comm]

theorem reaches {final : Numbering S} (hcovers : Covers successors roots state)
    (hrun : StateTransition.Reaches (Numbering.step order successors) state final) :
    Covers successors roots final := by
  induction hrun with
  | refl => exact hcovers
  | tail _ hstep ih => exact ih.step hstep

/-- What a search has visited when it stops is all that the roots lead to. -/
theorem finite_reached (hcovers : Covers successors roots state)
    (hstop : state.step order successors = none) : (reached successors roots).Finite := by
  have htodo : state.todo = [] := by
    obtain ⟨left, path, visited, table⟩ := state
    match path, left with
    | [], [] => rfl
    | ⟨node, _ :: _⟩ :: outer, _ => cases hstop
    | ⟨node, []⟩ :: outer, _ => cases hstop
  have hvisited : ∀ node, state.Knows node → node ∈ state.visited.toList := by
    intro node hknows
    exact Std.HashSet.mem_toList.mpr (hknows.resolve_right (htodo ▸ List.not_mem_nil))
  refine (List.finite_toSet state.visited.toList).subset (reached_subset ?_ ?_)
  · exact fun root hroot => hvisited root (hcovers.roots root hroot)
  · intro node hnode next hnext
    exact hvisited next (hcovers.successors node (Std.HashSet.mem_toList.mp hnode) next hnext)

end Covers

end Numbering

section Ends

variable [LawfulBEq S] {successors : S → List S} {roots : List S}

/-- **The search ends exactly when the roots lead to finitely many nodes.** -/
theorem dom_eval_iff (order : RankOrder) :
    (StateTransition.eval (Numbering.step order successors) { roots }).Dom ↔
      (reached successors roots).Finite := by
  constructor
  · intro hends
    obtain ⟨final, hfinal⟩ := Part.dom_iff_mem.mp hends
    obtain ⟨hrun, hstop⟩ := StateTransition.mem_eval.mp hfinal
    have hstart : Numbering.Covers successors roots { roots } :=
      ⟨fun root hroot => Or.inr hroot, fun node hnode => absurd hnode Std.HashSet.not_mem_empty⟩
    exact (hstart.reaches hrun).finite_reached hstop
  · intro hfinite
    obtain ⟨forest, hgrows⟩ := exists_grows hfinite
    obtain ⟨final, hfinal, -⟩ := exists_mem_eval hgrows order
    exact Part.dom_iff_mem.mpr ⟨final, hfinal⟩

/-- **The search ends and numbers what it reaches.**  Where the roots lead to
finitely many nodes, finitely many steps lead to a state that has no next one.
The ranks there are the result, and they number the nodes that the roots lead
to.  Both orders number the same nodes. -/
theorem rankBy_numbers (hfinite : (reached successors roots).Finite) :
    (∀ order, ∃ final : Numbering S,
      StateTransition.Reaches (Numbering.step order successors) { roots } final ∧
        final.step order successors = none ∧ rankBy order successors roots = final.ranks ∧
        Numbers (reached successors roots) (rankBy order successors roots)) ∧
      ∀ node,
        node ∈ rankBy .discover successors roots ↔ node ∈ rankBy .finish successors roots := by
  obtain ⟨forest, hgrows⟩ := exists_grows hfinite
  have hnodes : ∀ order, {node | node ∈ forest.orderBy order} = reached successors roots := by
    intro order
    ext node
    exact Forest.mem_orderBy.trans (mem_iff_reached hgrows)
  have hnumbers : ∀ order, Numbers (reached successors roots) (rankBy order successors roots) := by
    intro order
    rw [rankBy_of_grows hgrows, ← hnodes order]
    exact numbers_ranks (hgrows.distinct.nodup_orderBy order)
  constructor
  · intro order
    obtain ⟨final, hfinal, -⟩ := exists_mem_eval hgrows order
    obtain ⟨hrun, hstop⟩ := StateTransition.mem_eval.mp hfinal
    exact ⟨final, hrun, hstop, rankBy_of_mem_eval hfinal, hnumbers order⟩
  · intro node
    rw [(hnumbers .discover).mem_iff, (hnumbers .finish).mem_iff]

end Ends

/-- Even numbers lead to their half and to zero, odd ones to themselves and up.  From
any number the search may run far among the others. -/
def halving (n : Nat) : List Nat := if n % 2 = 0 then [n / 2, n / 2, 0] else [n, 3 * n + 1]

theorem reached_halving_subset :
    reached halving [6, 10, 6] ⊆ {n | n ∈ [6, 3, 10, 5, 16, 8, 4, 2, 1, 0]} := by
  have hclosed : ∀ n ∈ [6, 3, 10, 5, 16, 8, 4, 2, 1, 0], ∀ next ∈ halving n,
      next ∈ [6, 3, 10, 5, 16, 8, 4, 2, 1, 0] := by decide
  exact reached_subset (by decide) hclosed

theorem rankBy_numbers_halving :
    (reached halving [6, 10, 6]).Finite ∧
      (∃ final : Numbering Nat,
        StateTransition.Reaches (Numbering.step .finish halving) { roots := [6, 10, 6] } final ∧
          final.step .finish halving = none ∧ rankBy .finish halving [6, 10, 6] = final.ranks) ∧
      3 ∈ rankBy .finish halving [6, 10, 6] ∧ 7 ∉ rankBy .discover halving [6, 10, 6] := by
  have hfinite : (reached halving [6, 10, 6]).Finite :=
    (List.finite_toSet _).subset reached_halving_subset
  obtain ⟨hends, hkeys⟩ := rankBy_numbers hfinite
  obtain ⟨final, hrun, hstop, hresult, hnumbers⟩ := hends .finish
  refine ⟨hfinite, ⟨final, hrun, hstop, hresult⟩, ?_, ?_⟩
  · have hsix : 6 ∈ reached halving [6, 10, 6] := root_mem_reached (by decide)
    exact (hnumbers.mem_iff 3).mpr (next_mem_reached hsix (by decide))
  · intro hmem
    exact absurd (reached_halving_subset ((hnumbers.mem_iff 7).mp ((hkeys 7).mp hmem))) (by decide)

/-- A chain of four nodes with a step back from the third to the second. -/
def looped (n : Nat) : List Nat :=
  if n = 0 then [1] else if n = 1 then [2, 2] else if n = 2 then [1, 3] else []

/-- The forest of a search through the chain. -/
theorem grows_looped : Grows looped Set.univ [0, 2]
    (.tree 0 (.tree 1 (.tree 2 (.tree 3 .empty .empty) .empty) .empty) .empty) := by
  refine .visit trivial (.visit ?_ (.visit ?_ (.skip ?_ (.visit ?_ (.done _) (.done _)))
    (.skip ?_ (.done _))) (.done _)) (.skip ?_ (.done _))
  all_goals simp

end DepthFirst

end ProgramGraphs
