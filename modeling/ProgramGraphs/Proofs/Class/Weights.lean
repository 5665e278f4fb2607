import ProgramGraphs.Proofs.Class.Tally
import ProgramGraphs.Proofs.Record.Attributes
import ProgramGraphs.Proofs.Render.Facts
import ProgramGraphs.Record.Graphs

/-!
# Exported weights

The weight of an edge is a whole number as long as fewer than `2 ^ 53` calls were
recorded, in whatever way the graph was built (`Built.weight_eq_ones`).  Weights are the
only doubles that are exported, so the records of such a class graph hold whole numbers
(`Built.floatsWhole_toRecord`), and those of a canonical graph hold no doubles at all
(`floatsWhole_toRecord`).
-/

namespace ProgramGraphs

/-! ## Attribute maps -/

namespace Attributes

/-- A map holds whole numbers when the entries that it is made of do. -/
theorem floatsWhole_ofList {entries : List (String × Attribute)}
    (hwhole : ∀ entry ∈ entries, entry.2.FloatWhole) : (ofList entries).FloatsWhole :=
  fun entry hentry => hwhole entry (mem_of_mem_ofList hentry)

end Attributes

/-! ## Class graphs -/

namespace ClassGraph

/-- A class graph that was built by adding vertices and recording some number of
calls. -/
inductive Built : Nat → ClassGraph → Prop
  | empty : Built 0 empty
  | addVertex {calls : Nat} {graph : ClassGraph} (hbuilt : Built calls graph)
      (vertex : ClassVertex) : Built calls (graph.addVertex vertex).1
  | recordCall {calls : Nat} {graph : ClassGraph} (hbuilt : Built calls graph)
      (source target : ClassVertex) (sourceMethod targetMethod : String) :
      Built (calls + 1) (graph.recordCall source target sourceMethod targetMethod)

/-- The weights of a graph each count some of the calls. -/
def CountsUpTo (calls : Nat) (graph : ClassGraph) : Prop :=
  ∀ link ∈ graph.links.toList, ∃ count ≤ calls, link.call.weight = ones count

theorem CountsUpTo.addVertex {calls : Nat} {graph : ClassGraph} (hcounts : CountsUpTo calls graph)
    (vertex : ClassVertex) : CountsUpTo calls (graph.addVertex vertex).1 := by
  intro link hlink
  rw [links_addVertex] at hlink
  exact hcounts link hlink

theorem CountsUpTo.mono {calls more : Nat} {graph : ClassGraph} (hcounts : CountsUpTo calls graph)
    (hle : calls ≤ more) : CountsUpTo more graph := by
  intro link hlink
  obtain ⟨count, hcount, hweight⟩ := hcounts link hlink
  exact ⟨count, Nat.le_trans hcount hle, hweight⟩

/-- Counting one more call adds one to a weight, or a weight of one. -/
theorem CountsUpTo.countCall {calls : Nat} {graph : ClassGraph} (hcounts : CountsUpTo calls graph)
    (source target : Nat) (sourceMethod targetMethod : String) :
    CountsUpTo (calls + 1) (graph.countCall source target sourceMethod targetMethod) := by
  have hmono := hcounts.mono (Nat.le_succ calls)
  unfold ClassGraph.countCall
  split
  · rename_i index _
    intro link hlink
    rw [Array.toList_modify] at hlink
    obtain ⟨place, hplace⟩ := List.mem_iff_getElem?.mp hlink
    rw [List.getElem?_modify, Option.map_eq_map, Option.map_eq_some_iff] at hplace
    obtain ⟨old, hold, hlink⟩ := hplace
    have hmem := List.mem_of_getElem? hold
    by_cases hindex : index = place
    · rw [if_pos hindex] at hlink
      subst hlink
      obtain ⟨count, hcount, hweight⟩ := hcounts old hmem
      refine ⟨count + 1, Nat.succ_le_succ hcount, ?_⟩
      rw [ones, ← hweight]
      rfl
    · rw [if_neg hindex] at hlink
      subst hlink
      exact hmono old hmem
  · intro link hlink
    rw [Array.toList_push, List.mem_append, List.mem_singleton] at hlink
    rcases hlink with hlink | rfl
    · exact hmono link hlink
    · exact ⟨1, Nat.le_add_left 1 calls, rfl⟩

/-- **Weights count**: each is a sum of as many ones as calls were counted on it. -/
theorem Built.weight_eq_ones {calls : Nat} {graph : ClassGraph} (hbuilt : Built calls graph) :
    CountsUpTo calls graph := by
  induction hbuilt with
  | empty => exact fun link hlink => absurd hlink List.not_mem_nil
  | addVertex _ vertex ih => exact ih.addVertex vertex
  | recordCall _ source target sourceMethod targetMethod ih =>
      rw [ClassGraph.recordCall]
      by_cases hsame : source.className = target.className
      · rw [tryRecordCall_of_same _ hsame]
        exact ih.mono (Nat.le_succ _)
      · rw [tryRecordCall_of_ne _ hsame]
        exact ((ih.addVertex source).addVertex target).countCall _ _ sourceMethod targetMethod

theorem mem_links_of_mem_edges {graph : ClassGraph} {edge : ClassVertex × ClassVertex × CallEdge}
    (hmem : edge ∈ graph.edges) : ∃ link ∈ graph.links.toList, link.call = edge.2.2 := by
  obtain ⟨link, hlink, hedge⟩ := List.mem_filterMap.mp hmem
  simp only [Option.bind_eq_bind, Option.bind_eq_some_iff] at hedge
  obtain ⟨source, -, target, -, hedge⟩ := hedge
  exact ⟨link, hlink, congrArg (·.2.2) (Option.some.inj hedge)⟩

/-- **The records of a class graph hold whole numbers** when fewer than `2 ^ 53` calls
were recorded. -/
theorem Built.floatsWhole_toRecord {calls : Nat} {graph : ClassGraph} (hbuilt : Built calls graph)
    (hlt : calls < 2 ^ 53) : graph.toRecord.FloatsWhole := by
  constructor
  · intro vertex hvertex
    obtain ⟨vertex, -, rfl⟩ := List.mem_map.mp hvertex
    exact Attributes.floatsWhole_ofList (by simp [Attribute.FloatWhole, Attribute.ofCount])
  · intro edge hedge
    obtain ⟨⟨source, target, call⟩, hcall, rfl⟩ := List.mem_map.mp hedge
    obtain ⟨link, hlink, hsame⟩ := mem_links_of_mem_edges hcall
    obtain ⟨count, hcount, hweight⟩ := hbuilt.weight_eq_ones link hlink
    have hwhole : Decimal.IsWhole call.weight := by
      change link.call = call at hsame
      rw [← hsame, hweight, ones_eq_ofNat (Nat.lt_of_le_of_lt hcount hlt)]
      exact .ofNat (Nat.lt_of_le_of_lt hcount hlt)
    exact Attributes.floatsWhole_ofList (by simp [Attribute.FloatWhole, hwhole])

end ClassGraph

/-! ## Canonical graphs -/

/-- The records of a canonical graph hold no doubles. -/
theorem CanonicalGraph.floatsWhole_toRecord (graph : CanonicalGraph) :
    graph.toRecord.FloatsWhole := by
  have hoption : ∀ text, (Attribute.ofOption text).FloatWhole := by
    intro text
    cases text <;> trivial
  constructor
  · intro vertex hvertex
    obtain ⟨vertex, -, rfl⟩ := List.mem_map.mp hvertex
    exact Attributes.floatsWhole_ofList (by simp [Attribute.FloatWhole])
  · intro edge hedge
    obtain ⟨edge, -, rfl⟩ := List.mem_map.mp hedge
    refine Attributes.floatsWhole_ofList fun entry hentry => ?_
    simp only [List.mem_cons, List.not_mem_nil, or_false] at hentry
    rcases hentry with rfl | rfl | rfl
    · exact hoption edge.edgeType
    · trivial
    · exact hoption edge.context

end ProgramGraphs
