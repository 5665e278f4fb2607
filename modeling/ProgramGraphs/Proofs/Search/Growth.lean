import Mathlib.Logic.Relation
import Mathlib.Order.BooleanAlgebra.Set
import ProgramGraphs.Proofs.Search.Forest

/-!
# How a depth-first search grows its forest

`Grows successors white pending forest` is the recursive reading of the
search.  It tries the pending nodes in turn; a white one becomes the root of a
tree, the forest below it is grown from its successors, and the remaining
pending nodes are tried with what is then still white.  Nothing here mentions
frames or ranks: the loop is related to `Grows` in
`ProgramGraphs.Proofs.Search.Loop`.

## Strategy

Every fact is an induction on `Grows`, with one case for each rule.

* The nodes of the forest are white and distinct (`Grows.mem_white`,
  `Grows.distinct`), and no white successor of one is missing
  (`Grows.closed`).
* **Edges.**  An edge out of the forest to a white node either leads up to a
  node on the way back to the root, or to a node that is finished earlier
  (`Grows.under_or_finished_before`).
* **Paths.**  What lies under a node is reached from it along the edges of the
  forest, each of which leads from a node to another one under it
  (`Grows.path_of_under`).
-/

namespace ProgramGraphs

variable {S : Type}

/-- The forest that a search grows from the pending nodes, in their order, when
it may discover the white ones. -/
inductive Grows (successors : S → List S) : Set S → List S → Forest S → Prop
  | done (white : Set S) : Grows successors white [] .empty
  | skip {white : Set S} {next : S} {pending : List S} {forest : Forest S}
      (hblack : next ∉ white) (hforest : Grows successors white pending forest) :
      Grows successors white (next :: pending) forest
  | visit {white : Set S} {next : S} {pending : List S} {below rest : Forest S}
      (hwhite : next ∈ white)
      (hbelow : Grows successors (white \ {next}) (successors next) below)
      (hrest : Grows successors ((white \ {next}) \ {node | node ∈ below}) pending rest) :
      Grows successors white (next :: pending) (.tree next below rest)

namespace Grows

variable {successors : S → List S} {white : Set S} {pending : List S} {forest : Forest S}

theorem mem_white (hgrows : Grows successors white pending forest) {node : S}
    (hmem : node ∈ forest) : node ∈ white := by
  induction hgrows with
  | done => exact absurd hmem (Forest.not_mem_empty node)
  | skip _ _ ih => exact ih hmem
  | visit hwhite _ _ ihBelow ihRest =>
      rcases Forest.mem_tree.mp hmem with rfl | hbelow | hrest
      · exact hwhite
      · exact (ihBelow hbelow).1
      · exact (ihRest hrest).1.1

theorem distinct (hgrows : Grows successors white pending forest) : forest.Distinct := by
  induction hgrows with
  | done => exact List.nodup_nil
  | skip _ _ ih => exact ih
  | visit _ hbelow hrest ihBelow ihRest =>
      refine Forest.distinct_tree.mpr ⟨ihBelow, ihRest, ?_, ?_, ?_⟩
      · exact fun hmem => (hbelow.mem_white hmem).2 rfl
      · exact fun hmem => (hrest.mem_white hmem).1.2 rfl
      · exact fun node hnode hmem => (hrest.mem_white hmem).2 hnode

/-! ## The forest is closed -/

theorem mem_of_pending (hgrows : Grows successors white pending forest) {node : S}
    (hpending : node ∈ pending) (hwhite : node ∈ white) : node ∈ forest := by
  induction hgrows with
  | done => exact absurd hpending List.not_mem_nil
  | skip hblack _ ih =>
      rcases List.mem_cons.mp hpending with rfl | htail
      · exact absurd hwhite hblack
      · exact ih htail hwhite
  | @visit white next pending below rest _ _ _ _ ihRest =>
      rcases List.mem_cons.mp hpending with rfl | htail
      · exact Forest.mem_tree.mpr (Or.inl rfl)
      by_cases hnext : node = next
      · exact Forest.mem_tree.mpr (Or.inl hnext)
      by_cases hbelow : node ∈ below
      · exact Forest.mem_tree.mpr (Or.inr (Or.inl hbelow))
      · exact Forest.mem_tree.mpr (Or.inr (Or.inr (ihRest htail ⟨⟨hwhite, hnext⟩, hbelow⟩)))

/-- A white successor of a node of the forest is in the forest. -/
theorem closed (hgrows : Grows successors white pending forest) {node next : S}
    (hnode : node ∈ forest) (hnext : next ∈ successors node) (hwhite : next ∈ white) :
    next ∈ forest := by
  induction hgrows with
  | done => exact absurd hnode (Forest.not_mem_empty node)
  | skip _ _ ih => exact ih hnode hwhite
  | @visit white root pending below rest _ hbelow _ ihBelow ihRest =>
      by_cases hroot : next = root
      · exact Forest.mem_tree.mpr (Or.inl hroot)
      by_cases hmem : next ∈ below
      · exact Forest.mem_tree.mpr (Or.inr (Or.inl hmem))
      rcases Forest.mem_tree.mp hnode with rfl | hnodeBelow | hnodeRest
      · exact absurd (hbelow.mem_of_pending hnext ⟨hwhite, hroot⟩) hmem
      · exact absurd (ihBelow hnodeBelow ⟨hwhite, hroot⟩) hmem
      · exact Forest.mem_tree.mpr (Or.inr (Or.inr (ihRest hnodeRest ⟨⟨hwhite, hroot⟩, hmem⟩)))

/-! ## Edges lead up or to what is finished earlier -/

/-- The search leaves the target of an edge first, unless it is still busy with
it. -/
theorem under_or_finished_before [BEq S] [LawfulBEq S]
    (hgrows : Grows successors white pending forest) {node next : S}
    (hnode : node ∈ forest) (hnext : next ∈ successors node) (hwhite : next ∈ white) :
    forest.Under node next ∨ forest.postorder.idxOf next < forest.postorder.idxOf node := by
  induction hgrows with
  | done => exact absurd hnode (Forest.not_mem_empty node)
  | skip _ _ ih => exact ih hnode hwhite
  | @visit white root pending below rest hrootWhite hbelow hrest ihBelow ihRest =>
      have hdistinct := (Grows.visit hrootWhite hbelow hrest).distinct
      rcases Forest.mem_tree.mp hnode with rfl | hnodeBelow | hnodeRest
      · by_cases hroot : next = node
        · rw [hroot]
          exact Or.inl (Forest.under_refl hnode)
        · have hmem := hbelow.mem_of_pending hnext ⟨hwhite, hroot⟩
          rw [Forest.idxOf_postorder_root hdistinct, Forest.idxOf_postorder_below hmem]
          exact Or.inr (Forest.idxOf_postorder_lt hmem)
      · by_cases hroot : next = root
        · exact Or.inl (Or.inl ⟨hroot, Or.inr hnodeBelow⟩)
        · have hmem := hbelow.closed hnodeBelow hnext ⟨hwhite, hroot⟩
          rw [Forest.idxOf_postorder_below hmem, Forest.idxOf_postorder_below hnodeBelow]
          exact (ihBelow hnodeBelow ⟨hwhite, hroot⟩).imp_left fun hunder => Or.inr (Or.inl hunder)
      · -- the whole first tree is finished before the later ones
        rw [Forest.idxOf_postorder_rest hdistinct hnodeRest]
        by_cases hroot : next = root
        · rw [hroot, Forest.idxOf_postorder_root hdistinct]
          exact Or.inr (by omega)
        by_cases hmem : next ∈ below
        · have hlt := Forest.idxOf_postorder_lt hmem
          rw [Forest.idxOf_postorder_below hmem]
          exact Or.inr (by omega)
        · have hmemRest := hrest.closed hnodeRest hnext ⟨⟨hwhite, hroot⟩, hmem⟩
          rw [Forest.idxOf_postorder_rest hdistinct hmemRest]
          rcases ihRest hnodeRest ⟨⟨hwhite, hroot⟩, hmem⟩ with hunder | hlt
          · exact Or.inl (Or.inr (Or.inr hunder))
          · exact Or.inr (by omega)

end Grows

/-! ## Paths along the forest -/

/-- An edge of the graph from a node of the forest to another one under it. -/
def Leads (successors : S → List S) (forest : Forest S) (parent child : S) : Prop :=
  child ∈ successors parent ∧ forest.Under child parent ∧ child ≠ parent

section Leads

variable {successors : S → List S} {root node : S} {below rest : Forest S}

theorem Leads.of_below {parent child : S} (hleads : Leads successors below parent child) :
    Leads successors (.tree root below rest) parent child :=
  ⟨hleads.1, Or.inr (Or.inl hleads.2.1), hleads.2.2⟩

theorem Leads.of_rest {parent child : S} (hleads : Leads successors rest parent child) :
    Leads successors (.tree root below rest) parent child :=
  ⟨hleads.1, Or.inr (Or.inr hleads.2.1), hleads.2.2⟩

theorem path_from_root (hroot : root ∉ below)
    (hpath : ∃ start ∈ successors root, start ∈ below ∧
      Relation.ReflTransGen (Leads successors below) start node) :
    Relation.ReflTransGen (Leads successors (.tree root below rest)) root node := by
  obtain ⟨start, hstart, hmem, hpath⟩ := hpath
  have hfirst : Leads successors (.tree root below rest) root start :=
    ⟨hstart, Or.inl ⟨rfl, Or.inr hmem⟩, fun heq => hroot (heq ▸ hmem)⟩
  exact (Relation.ReflTransGen.mono (fun _ _ => Leads.of_below) _ _ hpath).head hfirst

end Leads

namespace Grows

variable {successors : S → List S} {white : Set S} {pending : List S} {forest : Forest S}

/-- Every node is reached from a pending one along the forest. -/
theorem path_of_mem (hgrows : Grows successors white pending forest) {node : S}
    (hmem : node ∈ forest) :
    ∃ start ∈ pending, start ∈ forest ∧
      Relation.ReflTransGen (Leads successors forest) start node := by
  induction hgrows with
  | done => exact absurd hmem (Forest.not_mem_empty node)
  | skip _ _ ih =>
      obtain ⟨start, hstart, hpath⟩ := ih hmem
      exact ⟨start, List.mem_cons_of_mem _ hstart, hpath⟩
  | @visit white root pending below rest _ hbelow _ ihBelow ihRest =>
      rcases Forest.mem_tree.mp hmem with rfl | hnodeBelow | hnodeRest
      · exact ⟨node, List.mem_cons_self, hmem, Relation.ReflTransGen.refl⟩
      · have hroot : root ∉ below := fun hroot => (hbelow.mem_white hroot).2 rfl
        exact ⟨root, List.mem_cons_self, Forest.mem_tree.mpr (Or.inl rfl),
          path_from_root hroot (ihBelow hnodeBelow)⟩
      · obtain ⟨start, hstart, hstartRest, hpath⟩ := ihRest hnodeRest
        exact ⟨start, List.mem_cons_of_mem _ hstart,
          Forest.mem_tree.mpr (Or.inr (Or.inr hstartRest)),
          Relation.ReflTransGen.mono (fun _ _ => Leads.of_rest) _ _ hpath⟩

/-- Every node is reached along the forest from each node that it lies under. -/
theorem path_of_under (hgrows : Grows successors white pending forest) {inner outer : S}
    (hunder : forest.Under inner outer) :
    Relation.ReflTransGen (Leads successors forest) outer inner := by
  induction hgrows with
  | done => exact hunder.elim
  | skip _ _ ih => exact ih hunder
  | @visit white root pending below rest _ hbelow _ ihBelow ihRest =>
      rcases hunder with ⟨rfl, rfl | hinner⟩ | hunderBelow | hunderRest
      · exact Relation.ReflTransGen.refl
      · have hroot : outer ∉ below := fun hroot => (hbelow.mem_white hroot).2 rfl
        exact path_from_root hroot (hbelow.path_of_mem hinner)
      · exact Relation.ReflTransGen.mono (fun _ _ => Leads.of_below) _ _ (ihBelow hunderBelow)
      · exact Relation.ReflTransGen.mono (fun _ _ => Leads.of_rest) _ _ (ihRest hunderRest)

/-! ## What the forest holds -/

/-- **The forest holds what white paths reach** from the white nodes among the
pending ones. -/
theorem mem_iff (hgrows : Grows successors white pending forest) {node : S} :
    node ∈ forest ↔ ∃ start ∈ pending, start ∈ white ∧
      Relation.ReflTransGen (fun source target => target ∈ successors source ∧ target ∈ white)
        start node := by
  constructor
  · intro hmem
    obtain ⟨start, hstart, hstartMem, hpath⟩ := hgrows.path_of_mem hmem
    exact ⟨start, hstart, hgrows.mem_white hstartMem,
      Relation.ReflTransGen.mono
        (fun _ _ hleads => ⟨hleads.1, hgrows.mem_white hleads.2.1.mem.1⟩) _ _ hpath⟩
  · rintro ⟨start, hstart, hwhite, hpath⟩
    induction hpath with
    | refl => exact hgrows.mem_of_pending hstart hwhite
    | tail _ hstep ih => exact hgrows.closed ih hstep.1 hstep.2

end Grows

end ProgramGraphs
