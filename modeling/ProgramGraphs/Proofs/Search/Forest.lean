import Mathlib.Data.List.Nodup
import ProgramGraphs.Search.DepthFirst

/-!
# Ordered forests and their two orders

A depth-first search leaves a forest behind: every node it discovers stands
below the node that led to it, in the order of discovery.  `preorder` lists a
node before everything below it, `postorder` after.

`under_iff_nested` is what makes ranks useful.  When no node occurs twice, a
node lies under another exactly when its interval, from its place in the first
order to its place in the second, is nested in the other's.
-/

namespace ProgramGraphs

/-- An ordered forest: the root of its first tree, the forest below that root,
and the rest of the trees. -/
inductive Forest (S : Type) where
  | empty
  | tree (root : S) (below rest : Forest S)

namespace Forest

variable {S : Type}

/-- The nodes, each before those below it. -/
def preorder : Forest S → List S
  | empty => []
  | tree root below rest => root :: (below.preorder ++ rest.preorder)

/-- The nodes, each after those below it. -/
def postorder : Forest S → List S
  | empty => []
  | tree root below rest => below.postorder ++ root :: rest.postorder

instance : Membership S (Forest S) := ⟨fun forest node => node ∈ forest.preorder⟩

instance [BEq S] [LawfulBEq S] (node : S) (forest : Forest S) : Decidable (node ∈ forest) :=
  inferInstanceAs (Decidable (node ∈ forest.preorder))

@[simp] theorem not_mem_empty (node : S) : node ∉ (empty : Forest S) := List.not_mem_nil

@[simp] theorem mem_tree {node root : S} {below rest : Forest S} :
    node ∈ tree root below rest ↔ node = root ∨ node ∈ below ∨ node ∈ rest := by
  show node ∈ root :: (below.preorder ++ rest.preorder) ↔ _
  rw [List.mem_cons, List.mem_append]
  rfl

@[simp] theorem mem_preorder {node : S} {forest : Forest S} :
    node ∈ forest.preorder ↔ node ∈ forest := Iff.rfl

theorem postorder_perm (forest : Forest S) : forest.postorder.Perm forest.preorder := by
  induction forest with
  | empty => exact List.Perm.refl _
  | tree root below rest ihBelow ihRest =>
      exact List.perm_middle.trans ((ihBelow.append ihRest).cons root)

@[simp] theorem mem_postorder {node : S} {forest : Forest S} :
    node ∈ forest.postorder ↔ node ∈ forest := forest.postorder_perm.mem_iff

@[simp] theorem length_postorder (forest : Forest S) :
    forest.postorder.length = forest.preorder.length := forest.postorder_perm.length_eq

/-- No node occurs twice. -/
def Distinct (forest : Forest S) : Prop := forest.preorder.Nodup

theorem distinct_tree {root : S} {below rest : Forest S} :
    (tree root below rest).Distinct ↔ below.Distinct ∧ rest.Distinct ∧
      root ∉ below ∧ root ∉ rest ∧ ∀ node ∈ below, node ∉ rest := by
  show (root :: (below.preorder ++ rest.preorder)).Nodup ↔ _
  rw [List.nodup_cons, List.nodup_append', List.mem_append, not_or, List.disjoint_left]
  exact ⟨fun ⟨⟨hbelow, hrest⟩, hb, hr, hdisjoint⟩ => ⟨hb, hr, hbelow, hrest, hdisjoint⟩,
    fun ⟨hb, hr, hbelow, hrest, hdisjoint⟩ => ⟨⟨hbelow, hrest⟩, hb, hr, hdisjoint⟩⟩

theorem Distinct.nodup_postorder {forest : Forest S} (hdistinct : forest.Distinct) :
    forest.postorder.Nodup := forest.postorder_perm.nodup_iff.mpr hdistinct

/-! ## What lies under a node -/

/-- The first node is the second or stands somewhere below it. -/
def Under : Forest S → S → S → Prop
  | empty, _, _ => False
  | tree root below rest, inner, outer =>
      (outer = root ∧ (inner = root ∨ inner ∈ below)) ∨
        below.Under inner outer ∨ rest.Under inner outer

theorem Under.mem {forest : Forest S} {inner outer : S} (hunder : forest.Under inner outer) :
    inner ∈ forest ∧ outer ∈ forest := by
  induction forest with
  | empty => exact hunder.elim
  | tree root below rest ihBelow ihRest =>
      rw [mem_tree, mem_tree]
      rcases hunder with ⟨houter, hinner⟩ | hbelow | hrest
      · exact ⟨hinner.imp_right Or.inl, Or.inl houter⟩
      · exact ⟨Or.inr (Or.inl (ihBelow hbelow).1), Or.inr (Or.inl (ihBelow hbelow).2)⟩
      · exact ⟨Or.inr (Or.inr (ihRest hrest).1), Or.inr (Or.inr (ihRest hrest).2)⟩

theorem under_refl {forest : Forest S} {node : S} (hmem : node ∈ forest) :
    forest.Under node node := by
  induction forest with
  | empty => exact absurd hmem (not_mem_empty node)
  | tree root below rest ihBelow ihRest =>
      rcases mem_tree.mp hmem with hroot | hbelow | hrest
      · exact Or.inl ⟨hroot, Or.inl hroot⟩
      · exact Or.inr (Or.inl (ihBelow hbelow))
      · exact Or.inr (Or.inr (ihRest hrest))

section Distinct

variable {root inner outer : S} {below rest : Forest S}

theorem under_root_iff (hdistinct : (tree root below rest).Distinct) :
    (tree root below rest).Under inner root ↔ inner = root ∨ inner ∈ below := by
  obtain ⟨-, -, hrootBelow, hrootRest, -⟩ := distinct_tree.mp hdistinct
  constructor
  · rintro (⟨-, hinner⟩ | hbelow | hrest)
    · exact hinner
    · exact absurd hbelow.mem.2 hrootBelow
    · exact absurd hrest.mem.2 hrootRest
  · exact fun hinner => Or.inl ⟨rfl, hinner⟩

theorem under_below_iff (hdistinct : (tree root below rest).Distinct) (houter : outer ∈ below) :
    (tree root below rest).Under inner outer ↔ below.Under inner outer := by
  obtain ⟨-, -, hrootBelow, -, hdisjoint⟩ := distinct_tree.mp hdistinct
  constructor
  · rintro (⟨hroot, -⟩ | hbelow | hrest)
    · exact absurd (hroot ▸ houter) hrootBelow
    · exact hbelow
    · exact absurd hrest.mem.2 (hdisjoint outer houter)
  · exact fun hbelow => Or.inr (Or.inl hbelow)

theorem under_rest_iff (hdistinct : (tree root below rest).Distinct) (houter : outer ∈ rest) :
    (tree root below rest).Under inner outer ↔ rest.Under inner outer := by
  obtain ⟨-, -, -, hrootRest, hdisjoint⟩ := distinct_tree.mp hdistinct
  constructor
  · rintro (⟨hroot, -⟩ | hbelow | hrest)
    · exact absurd (hroot ▸ houter) hrootRest
    · exact absurd houter (hdisjoint outer hbelow.mem.2)
    · exact hrest
  · exact fun hrest => Or.inr (Or.inr hrest)

end Distinct

/-! ## Places in the two orders -/

section Places

variable [BEq S] [LawfulBEq S] {root node : S} {below rest : Forest S}

theorem idxOf_preorder_lt (hmem : node ∈ below) :
    below.preorder.idxOf node < below.preorder.length := List.idxOf_lt_length_of_mem hmem

theorem idxOf_postorder_lt (hmem : node ∈ below) :
    below.postorder.idxOf node < below.preorder.length := by
  rw [← length_postorder]
  exact List.idxOf_lt_length_of_mem (mem_postorder.mpr hmem)

theorem idxOf_preorder_root :
    (tree root below rest).preorder.idxOf root = 0 := List.idxOf_cons_self

theorem idxOf_preorder_below (hdistinct : (tree root below rest).Distinct) (hmem : node ∈ below) :
    (tree root below rest).preorder.idxOf node = below.preorder.idxOf node + 1 := by
  obtain ⟨-, -, hrootBelow, -, -⟩ := distinct_tree.mp hdistinct
  have hne : root ≠ node := fun heq => hrootBelow (heq ▸ hmem)
  rw [preorder, List.idxOf_cons_ne _ hne, List.idxOf_append_of_mem hmem]

theorem idxOf_preorder_rest (hdistinct : (tree root below rest).Distinct) (hmem : node ∈ rest) :
    (tree root below rest).preorder.idxOf node =
      rest.preorder.idxOf node + below.preorder.length + 1 := by
  obtain ⟨-, -, -, hrootRest, hdisjoint⟩ := distinct_tree.mp hdistinct
  have hne : root ≠ node := fun heq => hrootRest (heq ▸ hmem)
  have hnot : node ∉ below := fun hbelow => hdisjoint node hbelow hmem
  rw [preorder, List.idxOf_cons_ne _ hne, List.idxOf_append_of_notMem hnot]
  omega

theorem idxOf_postorder_root (hdistinct : (tree root below rest).Distinct) :
    (tree root below rest).postorder.idxOf root = below.preorder.length := by
  obtain ⟨-, -, hrootBelow, -, -⟩ := distinct_tree.mp hdistinct
  rw [postorder, List.idxOf_append_of_notMem (by simpa using hrootBelow), List.idxOf_cons_self]
  simp

theorem idxOf_postorder_below (hmem : node ∈ below) :
    (tree root below rest).postorder.idxOf node = below.postorder.idxOf node := by
  rw [postorder, List.idxOf_append_of_mem (by simpa using hmem)]

theorem idxOf_postorder_rest (hdistinct : (tree root below rest).Distinct) (hmem : node ∈ rest) :
    (tree root below rest).postorder.idxOf node =
      rest.postorder.idxOf node + below.preorder.length + 1 := by
  obtain ⟨-, -, -, hrootRest, hdisjoint⟩ := distinct_tree.mp hdistinct
  have hne : root ≠ node := fun heq => hrootRest (heq ▸ hmem)
  have hnot : node ∉ below := fun hbelow => hdisjoint node hbelow hmem
  rw [postorder, List.idxOf_append_of_notMem (by simpa using hnot), List.idxOf_cons_ne _ hne,
    length_postorder]
  omega

end Places

/-! ## Nested intervals -/

section Nested

variable [BEq S] [LawfulBEq S]

/-- From the place of a node in the first order to its place in the second. -/
def interval (forest : Forest S) (node : S) : DepthFirst.Interval :=
  ⟨forest.preorder.idxOf node, forest.postorder.idxOf node⟩

/-- The interval of the first node is nested in that of the second. -/
def Nested (forest : Forest S) (inner outer : S) : Prop :=
  (forest.interval inner).Inside (forest.interval outer)

section Tree

variable {root inner outer : S} {below rest : Forest S}

theorem nested_root_iff (hdistinct : (tree root below rest).Distinct)
    (hinner : inner ∈ tree root below rest) :
    (tree root below rest).Nested inner root ↔ inner = root ∨ inner ∈ below := by
  obtain ⟨-, -, -, hrootRest, hdisjoint⟩ := distinct_tree.mp hdistinct
  simp only [Nested, interval, DepthFirst.Interval.Inside]
  rw [idxOf_preorder_root, idxOf_postorder_root hdistinct]
  rcases mem_tree.mp hinner with rfl | hbelow | hrest
  · simp [idxOf_postorder_root hdistinct]
  · have hlt := idxOf_postorder_lt hbelow
    rw [idxOf_postorder_below hbelow]
    exact ⟨fun _ => Or.inr hbelow, fun _ => ⟨Nat.zero_le _, Nat.le_of_lt hlt⟩⟩
  · rw [idxOf_postorder_rest hdistinct hrest]
    constructor
    · rintro ⟨-, hle⟩
      omega
    · rintro (rfl | hmem)
      · exact absurd hrest hrootRest
      · exact absurd hrest (hdisjoint inner hmem)

theorem nested_below_iff (hdistinct : (tree root below rest).Distinct) (houter : outer ∈ below)
    (hinner : inner ∈ tree root below rest) :
    (tree root below rest).Nested inner outer ↔ inner ∈ below ∧ below.Nested inner outer := by
  obtain ⟨-, -, hrootBelow, -, hdisjoint⟩ := distinct_tree.mp hdistinct
  have hlt := idxOf_postorder_lt houter
  simp only [Nested, interval, DepthFirst.Interval.Inside]
  rw [idxOf_preorder_below hdistinct houter, idxOf_postorder_below houter]
  rcases mem_tree.mp hinner with rfl | hbelow | hrest
  · -- the root is discovered before everything below it
    rw [idxOf_preorder_root]
    constructor
    · rintro ⟨hle, -⟩
      omega
    · rintro ⟨hmem, -⟩
      exact absurd hmem hrootBelow
  · rw [idxOf_preorder_below hdistinct hbelow, idxOf_postorder_below hbelow,
      Nat.add_le_add_iff_right]
    exact ⟨fun hnested => ⟨hbelow, hnested⟩, fun hnested => hnested.2⟩
  · -- the later trees are finished after it
    rw [idxOf_postorder_rest hdistinct hrest]
    constructor
    · rintro ⟨-, hle⟩
      omega
    · rintro ⟨hmem, -⟩
      exact absurd hrest (hdisjoint inner hmem)

theorem nested_rest_iff (hdistinct : (tree root below rest).Distinct) (houter : outer ∈ rest)
    (hinner : inner ∈ tree root below rest) :
    (tree root below rest).Nested inner outer ↔ inner ∈ rest ∧ rest.Nested inner outer := by
  obtain ⟨-, -, -, hrootRest, hdisjoint⟩ := distinct_tree.mp hdistinct
  simp only [Nested, interval, DepthFirst.Interval.Inside]
  rw [idxOf_preorder_rest hdistinct houter, idxOf_postorder_rest hdistinct houter]
  rcases mem_tree.mp hinner with rfl | hbelow | hrest
  · rw [idxOf_preorder_root]
    constructor
    · rintro ⟨hle, -⟩
      omega
    · rintro ⟨hmem, -⟩
      exact absurd hmem hrootRest
  · -- everything below the first root is discovered before the later trees
    have hlt := idxOf_preorder_lt hbelow
    rw [idxOf_preorder_below hdistinct hbelow]
    constructor
    · rintro ⟨hle, -⟩
      omega
    · rintro ⟨hmem, -⟩
      exact absurd hmem (hdisjoint inner hbelow)
  · rw [idxOf_preorder_rest hdistinct hrest, idxOf_postorder_rest hdistinct hrest]
    simp only [Nat.add_le_add_iff_right]
    exact ⟨fun hnested => ⟨hrest, hnested⟩, fun hnested => hnested.2⟩

end Tree

/-- **Intervals nest exactly along the paths of the forest.** -/
theorem under_iff_nested {forest : Forest S} (hdistinct : forest.Distinct) {inner outer : S}
    (hinner : inner ∈ forest) (houter : outer ∈ forest) :
    forest.Under inner outer ↔ forest.Nested inner outer := by
  induction forest with
  | empty => exact absurd hinner (not_mem_empty inner)
  | tree root below rest ihBelow ihRest =>
      obtain ⟨hbelow, hrest, -, -, -⟩ := distinct_tree.mp hdistinct
      rcases mem_tree.mp houter with rfl | houterBelow | houterRest
      · rw [under_root_iff hdistinct, nested_root_iff hdistinct hinner]
      · rw [under_below_iff hdistinct houterBelow, nested_below_iff hdistinct houterBelow hinner]
        constructor
        · intro hunder
          have hmem := hunder.mem.1
          exact ⟨hmem, (ihBelow hbelow hmem houterBelow).mp hunder⟩
        · rintro ⟨hmem, hnested⟩
          exact (ihBelow hbelow hmem houterBelow).mpr hnested
      · rw [under_rest_iff hdistinct houterRest, nested_rest_iff hdistinct houterRest hinner]
        constructor
        · intro hunder
          have hmem := hunder.mem.1
          exact ⟨hmem, (ihRest hrest hmem houterRest).mp hunder⟩
        · rintro ⟨hmem, hnested⟩
          exact (ihRest hrest hmem houterRest).mpr hnested

/-- Two nodes whose intervals nest in each other are one node. -/
theorem Nested.antisymm {forest : Forest S} {first second : S} (hmem : first ∈ forest)
    (hle : forest.Nested first second) (hge : forest.Nested second first) : first = second := by
  have hplace : forest.preorder.idxOf first = forest.preorder.idxOf second :=
    Nat.le_antisymm hge.1 hle.1
  exact (List.idxOf_inj hmem).mp hplace

end Nested

end Forest

end ProgramGraphs
