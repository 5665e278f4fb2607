import Mathlib.Data.List.Basic
import ProgramGraphs.Proofs.Search.Loop
import ProgramGraphs.Proofs.Search.Renaming

/-!
# One search after another

A search that has more nodes pending does first what it would have done without
them.  So its forest begins with the trees of the shorter search, and the trees
after these grow from what is still white then (`Grows.split`).  The nodes of
the shorter search keep their places in both orders (`Forest.interval_append`).

Where nothing is left to discover, the later pending nodes add no tree
(`Grows.eq_empty`).
-/

namespace ProgramGraphs

variable {S : Type}

namespace Forest

/-- The trees of one forest, and after them those of another one. -/
def append : Forest S → Forest S → Forest S
  | empty, later => later
  | tree root below rest, later => tree root below (rest.append later)

@[simp] theorem append_empty (forest : Forest S) : forest.append empty = forest := by
  induction forest with
  | empty => rfl
  | tree root below rest _ ihRest => rw [append, ihRest]

@[simp] theorem preorder_append (forest later : Forest S) :
    (forest.append later).preorder = forest.preorder ++ later.preorder := by
  induction forest with
  | empty => rfl
  | tree root below rest _ ihRest =>
      rw [append, preorder, ihRest, preorder, List.cons_append, List.append_assoc]

@[simp] theorem postorder_append (forest later : Forest S) :
    (forest.append later).postorder = forest.postorder ++ later.postorder := by
  induction forest with
  | empty => rfl
  | tree root below rest _ ihRest =>
      rw [append, postorder, ihRest, postorder, List.append_assoc, List.cons_append]

theorem mem_append {forest later : Forest S} {node : S} :
    node ∈ forest.append later ↔ node ∈ forest ∨ node ∈ later := by
  rw [← mem_preorder, preorder_append, List.mem_append, mem_preorder, mem_preorder]

/-- Later trees do not move the nodes of the earlier ones. -/
theorem interval_append [BEq S] [LawfulBEq S] {forest later : Forest S} {node : S}
    (hmem : node ∈ forest) : (forest.append later).interval node = forest.interval node := by
  rw [interval, preorder_append, postorder_append, List.idxOf_append_of_mem hmem,
    List.idxOf_append_of_mem (mem_postorder.mpr hmem), interval]

end Forest

namespace Grows

variable {successors : S → List S} {white : Set S} {pending more : List S} {forest : Forest S}

/-- A forest that grows from two lists of pending nodes begins with the one that
grows from the first list. -/
theorem split (hgrows : Grows successors white (pending ++ more) forest) :
    ∃ first later, forest = first.append later ∧ Grows successors white pending first ∧
      Grows successors (white \ {node | node ∈ first}) more later := by
  induction pending generalizing white forest with
  | nil =>
      refine ⟨.empty, forest, rfl, .done _, ?_⟩
      simpa using hgrows
  | cons next pending ih =>
      cases hgrows with
      | skip hblack hforest =>
          obtain ⟨first, later, rfl, hfirst, hlater⟩ := ih hforest
          exact ⟨first, later, rfl, .skip hblack hfirst, hlater⟩
      | @visit _ _ _ below _ hwhite hbelow hrest =>
          obtain ⟨first, later, rfl, hfirst, hlater⟩ := ih hrest
          refine ⟨.tree next below first, later, rfl, .visit hwhite hbelow hfirst, ?_⟩
          rwa [DepthFirst.sdiff_tree]

/-- From pending nodes that cannot be discovered nothing grows. -/
theorem eq_empty (hgrows : Grows successors white pending forest)
    (hblack : ∀ node ∈ pending, node ∉ white) : forest = .empty := by
  induction hgrows with
  | done => rfl
  | skip _ _ ih => exact ih fun node hnode => hblack node (List.mem_cons_of_mem _ hnode)
  | visit hwhite => exact absurd hwhite (hblack _ List.mem_cons_self)

/-- The nodes of the shorter search are led to no node of the later trees. -/
theorem not_mem_later {first later : Forest S} (hfirst : Grows successors white pending first)
    (hlater : Grows successors (white \ {node | node ∈ first}) more later) {node next : S}
    (hnode : node ∈ first) (hnext : next ∈ successors node) : next ∉ later := by
  intro hmem
  obtain ⟨hwhite, hnew⟩ := hlater.mem_white hmem
  exact hnew (hfirst.closed hnode hnext hwhite)

/-- Every node is pending or stands right below another one. -/
theorem pending_or_leads (hgrows : Grows successors white pending forest) {node : S}
    (hmem : node ∈ forest) :
    node ∈ pending ∨ ∃ parent, Leads successors forest parent node := by
  obtain ⟨start, hstart, -, hpath⟩ := hgrows.path_of_mem hmem
  cases hpath with
  | refl => exact Or.inl hstart
  | tail _ hleads => exact Or.inr ⟨_, hleads⟩

end Grows

end ProgramGraphs
