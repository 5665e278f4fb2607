import Mathlib.Data.Set.Function
import ProgramGraphs.Proofs.Search.Growth

/-!
# Renaming the nodes of a search

A search sees its nodes only as successors of each other and through the white
set.  So when the nodes that it can reach are renamed, in such a way that no two
of them get one name, the forest of the renamed search is the renamed forest
(`Grows.map`), and all places and intervals are those of the old one
(`Forest.interval_map`).

Pending nodes that are not white are skipped, so a search may as well be given
only those nodes of each list that were white in the beginning
(`Grows.restrict`).
-/

namespace ProgramGraphs

variable {S T : Type}

/-- The place of an element in a renamed list, when nothing else gets its name. -/
theorem idxOf_map [BEq S] [LawfulBEq S] [BEq T] [LawfulBEq T] {f : S → T} {list : List S} {a : S}
    (hinj : ∀ b ∈ list, f b = f a → b = a) : (list.map f).idxOf (f a) = list.idxOf a := by
  induction list with
  | nil => rfl
  | cons b list ih =>
      rw [List.map_cons]
      by_cases heq : b = a
      · rw [heq, List.idxOf_cons_self, List.idxOf_cons_self]
      · have hne : f b ≠ f a := fun hf => heq (hinj b List.mem_cons_self hf)
        rw [List.idxOf_cons_ne _ hne, List.idxOf_cons_ne _ heq,
          ih fun c hc => hinj c (List.mem_cons_of_mem b hc)]

namespace Forest

/-- The forest with other names for its nodes. -/
def map (f : S → T) : Forest S → Forest T
  | empty => empty
  | tree root below rest => tree (f root) (below.map f) (rest.map f)

@[simp] theorem preorder_map (f : S → T) (forest : Forest S) :
    (forest.map f).preorder = forest.preorder.map f := by
  induction forest with
  | empty => rfl
  | tree root below rest ihBelow ihRest =>
      simp only [map, preorder, ihBelow, ihRest, List.map_cons, List.map_append]

@[simp] theorem postorder_map (f : S → T) (forest : Forest S) :
    (forest.map f).postorder = forest.postorder.map f := by
  induction forest with
  | empty => rfl
  | tree root below rest ihBelow ihRest =>
      simp only [map, postorder, ihBelow, ihRest, List.map_cons, List.map_append]

section Renamed

variable {f : S → T} {reached : Set S} {forest : Forest S}

/-- A name belongs to a renamed node exactly when the node was there. -/
theorem mem_map (hinj : Set.InjOn f reached) (hreached : ∀ node ∈ forest, node ∈ reached)
    {node : S} (hnode : node ∈ reached) : f node ∈ forest.map f ↔ node ∈ forest := by
  rw [← mem_preorder, preorder_map, List.mem_map]
  constructor
  · rintro ⟨other, hother, heq⟩
    exact hinj (hreached other hother) hnode heq ▸ hother
  · exact fun hmem => ⟨node, hmem, rfl⟩

/-- A node keeps its places when all nodes are renamed. -/
theorem interval_map [BEq S] [LawfulBEq S] [BEq T] [LawfulBEq T] (hinj : Set.InjOn f reached)
    (hreached : ∀ node ∈ forest, node ∈ reached) {node : S} (hnode : node ∈ reached) :
    (forest.map f).interval (f node) = forest.interval node := by
  unfold interval
  rw [preorder_map, postorder_map,
    idxOf_map fun other hother heq => hinj (hreached other hother) hnode heq,
    idxOf_map fun other hother heq =>
      hinj (hreached other (mem_postorder.mp hother)) hnode heq]

end Renamed

end Forest

namespace Grows

variable {successors : S → List S} {white : Set S} {pending : List S} {forest : Forest S}

/-- A search has one outcome only. -/
theorem unique (hgrows : Grows successors white pending forest) {other : Forest S}
    (hother : Grows successors white pending other) : forest = other := by
  induction hgrows generalizing other with
  | done =>
      cases hother
      rfl
  | skip hblack _ ih =>
      cases hother with
      | skip _ hother => exact ih hother
      | visit hwhite => exact absurd hwhite hblack
  | visit hwhite _ _ ihBelow ihRest =>
      cases hother with
      | skip hblack => exact absurd hwhite hblack
      | visit _ hbelow hrest =>
          obtain rfl := ihBelow hbelow
          rw [ihRest hrest]

/-- Nodes that cannot be discovered may be left out of all lists. -/
theorem restrict (hgrows : Grows successors white pending forest) {possible : S → Bool}
    (hwhite : ∀ node ∈ white, possible node = true) :
    Grows (fun node => (successors node).filter possible) white (pending.filter possible)
      forest := by
  induction hgrows with
  | done => exact .done _
  | @skip white next pending forest hblack _ ih =>
      rw [List.filter_cons]
      split
      · exact .skip hblack (ih hwhite)
      · exact ih hwhite
  | @visit white next pending below rest hnext _ _ ihBelow ihRest =>
      rw [List.filter_cons, if_pos (hwhite next hnext)]
      refine .visit hnext (ihBelow fun node hnode => hwhite node hnode.1) ?_
      exact ihRest fun node hnode => hwhite node hnode.1.1

/-- The search stays among nodes that it is started with and that it is not led
away from. -/
theorem mem_of_closed (hgrows : Grows successors white pending forest) {reached : Set S}
    (hpending : ∀ node ∈ pending, node ∈ reached)
    (hclosed : ∀ node ∈ reached, ∀ next ∈ successors node, next ∈ reached) {node : S}
    (hmem : node ∈ forest) : node ∈ reached := by
  obtain ⟨start, hstart, -, hpath⟩ := hgrows.mem_iff.mp hmem
  clear hmem
  induction hpath with
  | refl => exact hpending start hstart
  | tail _ hstep ih => exact hclosed _ ih _ hstep.1

/-- **Renaming commutes with the search**, when it keeps apart the nodes that
the search can reach, and respects their successors and which of them are white. -/
theorem map {f : S → T} {reached : Set S} {newSuccessors : T → List T} {newWhite : Set T}
    (hgrows : Grows successors white pending forest) (hinj : Set.InjOn f reached)
    (hclosed : ∀ node ∈ reached, ∀ next ∈ successors node, next ∈ reached)
    (hsuccessors : ∀ node ∈ reached, newSuccessors (f node) = (successors node).map f)
    (hpending : ∀ node ∈ pending, node ∈ reached)
    (hwhite : ∀ node ∈ reached, f node ∈ newWhite ↔ node ∈ white) :
    Grows newSuccessors newWhite (pending.map f) (forest.map f) := by
  induction hgrows generalizing newWhite with
  | done => exact .done _
  | @skip white next pending forest hblack _ ih =>
      have hnext := hpending next List.mem_cons_self
      refine .skip (fun hmem => hblack ((hwhite next hnext).mp hmem)) ?_
      exact ih (fun node hnode => hpending node (List.mem_cons_of_mem _ hnode)) hwhite
  | @visit white next pending below rest hmem hbelow _ ihBelow ihRest =>
      have hnext := hpending next List.mem_cons_self
      have hinside : ∀ node ∈ successors next, node ∈ reached := hclosed next hnext
      have hbelowReached : ∀ node ∈ below, node ∈ reached := fun node hnode =>
        hbelow.mem_of_closed hinside hclosed hnode
      -- what is white below the node, and after it
      have hwhiteBelow : ∀ node ∈ reached,
          f node ∈ newWhite \ {f next} ↔ node ∈ white \ {next} := fun node hnode =>
        and_congr (hwhite node hnode) (not_congr (hinj.eq_iff hnode hnext))
      have hwhiteRest : ∀ node ∈ reached,
          f node ∈ (newWhite \ {f next}) \ {name | name ∈ below.map f} ↔
            node ∈ (white \ {next}) \ {node | node ∈ below} := fun node hnode =>
        and_congr (hwhiteBelow node hnode)
          (not_congr (Forest.mem_map hinj hbelowReached hnode))
      refine .visit ((hwhite next hnext).mpr hmem) ?_ ?_
      · rw [hsuccessors next hnext]
        exact ihBelow hinside hwhiteBelow
      · exact ihRest (fun node hnode => hpending node (List.mem_cons_of_mem _ hnode)) hwhiteRest

end Grows

end ProgramGraphs
