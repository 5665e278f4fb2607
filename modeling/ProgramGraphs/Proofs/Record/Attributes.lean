import ProgramGraphs.Record.Attributes

/-!
# Attribute maps made of entries

Inserting one entry adds at most that entry (`mem_insertEntry`), so a map that is made
of a list of entries has no others (`mem_of_mem_ofList`).
-/

namespace ProgramGraphs.Attributes

theorem mem_insertEntry {key : String} {value : Attribute} {entries : List (String × Attribute)}
    {entry : String × Attribute} (hmem : entry ∈ insertEntry key value entries) :
    entry = (key, value) ∨ entry ∈ entries := by
  induction entries with
  | nil => exact .inl (List.mem_singleton.mp hmem)
  | cons first entries ih =>
      rw [insertEntry] at hmem
      split at hmem
      · exact (List.mem_cons.mp hmem).imp_right (List.mem_cons_of_mem first)
      · rcases List.mem_cons.mp hmem with rfl | hrest
        · exact .inr List.mem_cons_self
        · exact (ih hrest).imp_right (List.mem_cons_of_mem first)

theorem mem_foldl_insert {attributes : Attributes} {entries : List (String × Attribute)}
    {entry : String × Attribute}
    (hmem : entry ∈ (entries.foldl (fun attributes entry => attributes.insert entry.1 entry.2)
      attributes).toList) :
    entry ∈ attributes.toList ∨ entry ∈ entries := by
  induction entries generalizing attributes with
  | nil => exact .inl hmem
  | cons first entries ih =>
      rw [List.foldl_cons] at hmem
      rcases ih hmem with hmem | hmem
      · rcases mem_insertEntry hmem with rfl | hmem
        · exact .inr List.mem_cons_self
        · exact .inl hmem
      · exact .inr (List.mem_cons_of_mem first hmem)

theorem mem_of_mem_ofList {entries : List (String × Attribute)} {entry : String × Attribute}
    (hmem : entry ∈ (ofList entries).toList) : entry ∈ entries :=
  (mem_foldl_insert hmem).resolve_left List.not_mem_nil

end ProgramGraphs.Attributes
