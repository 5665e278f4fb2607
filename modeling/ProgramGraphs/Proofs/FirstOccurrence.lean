import Mathlib.Data.List.Induction
import Mathlib.Data.List.Nodup

/-!
# First occurrences

Several lists here keep only what occurs for the first time: the classes and the calls
of a class graph, the edges of a snapshot, the declarations of a document.  Their
elements are told apart by a key.  One more element at the end adds itself, unless its
key is there already (`eraseDups_concat`, `firstBy_concat`); everything about a whole
list follows from this by induction from its end.
-/

namespace ProgramGraphs

theorem eraseDups_concat {A : Type} [BEq A] [LawfulBEq A] (list : List A) (a : A) :
    (list ++ [a]).eraseDups = if a ∈ list then list.eraseDups else list.eraseDups ++ [a] := by
  rw [List.eraseDups_append, List.removeAll]
  by_cases hmem : a ∈ list <;> simp [hmem, List.eraseDups_cons]

/-- Without repetitions, elements stand in the order of their first occurrence. -/
theorem pairwise_idxOf_eraseDups {A : Type} [BEq A] [LawfulBEq A] (list : List A) :
    list.eraseDups.Pairwise fun first second => list.idxOf first < list.idxOf second := by
  induction list using List.reverseRecOn with
  | nil => exact List.Pairwise.nil
  | append_singleton list a ih =>
      have hkeep : ∀ b ∈ list, (list ++ [a]).idxOf b = list.idxOf b := fun b hb =>
        List.idxOf_append_of_mem hb
      have hold : list.eraseDups.Pairwise fun first second =>
          (list ++ [a]).idxOf first < (list ++ [a]).idxOf second := by
        refine ih.imp_of_mem fun hfirst hsecond hlt => ?_
        rwa [hkeep _ (List.mem_eraseDups.mp hfirst), hkeep _ (List.mem_eraseDups.mp hsecond)]
      rw [eraseDups_concat]
      by_cases hmem : a ∈ list
      · rwa [if_pos hmem]
      · rw [if_neg hmem, List.pairwise_append]
        refine ⟨hold, List.pairwise_singleton .., fun b hb c hc => ?_⟩
        obtain rfl := List.mem_singleton.mp hc
        rw [hkeep b (List.mem_eraseDups.mp hb), List.idxOf_append_of_notMem hmem]
        have hlt := List.idxOf_lt_length_of_mem (List.mem_eraseDups.mp hb)
        omega

theorem nodup_eraseDups {A : Type} [BEq A] [LawfulBEq A] (list : List A) :
    list.eraseDups.Nodup := by
  refine (pairwise_idxOf_eraseDups list).imp fun hlt heq => ?_
  rw [heq] at hlt
  exact Nat.lt_irrefl _ hlt

/-- A partial map that takes no value twice keeps first occurrences. -/
theorem eraseDups_filterMap {A B : Type} [BEq A] [LawfulBEq A] [BEq B] [LawfulBEq B]
    {f : A → Option B} (hinj : ∀ a a' b, f a = some b → f a' = some b → a = a') (list : List A) :
    (list.filterMap f).eraseDups = list.eraseDups.filterMap f := by
  induction list using List.reverseRecOn with
  | nil => rfl
  | append_singleton list a ih =>
      rw [List.filterMap_append, eraseDups_concat]
      cases ha : f a with
      | none =>
          have hsingle : [a].filterMap f = [] := by simp [ha]
          rw [hsingle, List.append_nil, ih]
          split
          · rfl
          · rw [List.filterMap_append, hsingle, List.append_nil]
      | some b =>
          have hsingle : [a].filterMap f = [b] := by simp [ha]
          have hmem : b ∈ list.filterMap f ↔ a ∈ list := by
            rw [List.mem_filterMap]
            constructor
            · rintro ⟨a', ha', hb⟩
              rwa [hinj a a' b ha hb]
            · exact fun ha' => ⟨a, ha', ha⟩
          rw [hsingle, eraseDups_concat, ih]
          by_cases hin : a ∈ list
          · rw [if_pos hin, if_pos (hmem.mpr hin)]
          · rw [if_neg hin, if_neg fun hb => hin (hmem.mp hb), List.filterMap_append, hsingle]

theorem eraseDups_filter {A : Type} [BEq A] [LawfulBEq A] (keep : A → Bool) (list : List A) :
    (list.filter keep).eraseDups = list.eraseDups.filter keep := by
  rw [← List.filterMap_eq_filter]
  apply eraseDups_filterMap
  intro a a' b ha ha'
  obtain ⟨rfl, -⟩ := Option.guard_eq_some_iff.mp ha
  exact (Option.guard_eq_some_iff.mp ha').1.symm

section FirstBy

variable {A B : Type} [DecidableEq B]

/-- The elements of a list whose key has not occurred before, in their order. -/
def firstBy (key : A → B) : List A → List A
  | [] => []
  | a :: list => a :: (firstBy key list).filter fun b => key b ≠ key a

theorem firstBy_concat (key : A → B) (list : List A) (a : A) :
    firstBy key (list ++ [a]) =
      if key a ∈ list.map key then firstBy key list else firstBy key list ++ [a] := by
  induction list with
  | nil => rfl
  | cons b list ih =>
      rw [List.cons_append, firstBy, ih, firstBy]
      by_cases hsame : key a = key b
      · have hmem : key a ∈ (b :: list).map key := hsame ▸ List.mem_cons_self
        rw [if_pos hmem]
        split <;> simp [hsame]
      · by_cases hmem : key a ∈ list.map key
        · simp [hmem]
        · simp [hmem, hsame]

/-- Further elements leave the first occurrences as they are. -/
theorem firstBy_prefix_append (key : A → B) (list more : List A) :
    firstBy key list <+: firstBy key (list ++ more) := by
  induction more using List.reverseRecOn with
  | nil => simp
  | append_singleton more a ih =>
      rw [← List.append_assoc, firstBy_concat]
      split
      · exact ih
      · exact ih.trans (List.prefix_append _ _)

theorem map_firstBy [BEq B] [LawfulBEq B] (key : A → B) (list : List A) :
    (firstBy key list).map key = (list.map key).eraseDups := by
  induction list using List.reverseRecOn with
  | nil => rfl
  | append_singleton list a ih =>
      rw [firstBy_concat, List.map_append, List.map_singleton, eraseDups_concat, ← ih]
      by_cases hmem : key a ∈ list.map key
      · rw [if_pos hmem, if_pos hmem]
      · rw [if_neg hmem, if_neg hmem, List.map_append, List.map_singleton]

theorem mem_firstBy {key : A → B} {list : List A} {a : A} :
    a ∈ firstBy key list ↔ list.find? (fun b => key b = key a) = some a := by
  induction list with
  | nil => simp [firstBy]
  | cons b list ih =>
      rw [firstBy, List.mem_cons, List.mem_filter, ih, List.find?_cons]
      by_cases hsame : key b = key a
      · simp [hsame, eq_comm]
      · have hne : a ≠ b := fun heq => hsame (heq ▸ rfl)
        simp [hsame, hne, Ne.symm hsame]

theorem mem_of_mem_firstBy {key : A → B} {list : List A} {a : A} (hmem : a ∈ firstBy key list) :
    a ∈ list :=
  List.mem_of_find?_eq_some (mem_firstBy.mp hmem)

/-- Among first occurrences an element is known by its key. -/
theorem pairwise_firstBy (key : A → B) (list : List A) :
    (firstBy key list).Pairwise fun a b => key a ≠ key b := by
  have hnodup := nodup_eraseDups (list.map key)
  rw [← map_firstBy] at hnodup
  exact List.pairwise_map.mp hnodup

/-- A search for the key of a first occurrence finds that occurrence. -/
theorem findIdx?_firstBy {key : A → B} {list : List A} {first : A}
    (hfirst : first ∈ firstBy key list) :
    ∃ place, (firstBy key list).findIdx? (fun a => key a = key first) = some place ∧
      (firstBy key list)[place]? = some first := by
  obtain ⟨place, hplace⟩ : ∃ place,
      (firstBy key list).findIdx? (fun a => key a = key first) = some place := by
    rw [← Option.isSome_iff_exists, List.findIdx?_isSome, List.any_eq_true]
    exact ⟨first, hfirst, decide_eq_true rfl⟩
  obtain ⟨hlt, hfound, -⟩ := List.findIdx?_eq_some_iff_getElem.mp hplace
  have hsame : (firstBy key list)[place] = first := by
    have hother := mem_firstBy.mp (List.getElem_mem hlt)
    rw [of_decide_eq_true hfound] at hother
    exact Option.some.inj (hother.symm.trans (mem_firstBy.mp hfirst))
  exact ⟨place, hplace, hsame ▸ List.getElem?_eq_getElem hlt⟩

theorem firstBy_map {A B C : Type} [DecidableEq C] (key : B → C) (f : A → B) (list : List A) :
    firstBy key (list.map f) = (firstBy (fun a => key (f a)) list).map f := by
  induction list with
  | nil => rfl
  | cons a list ih =>
      rw [List.map_cons, firstBy, firstBy, ih, List.filter_map, List.map_cons]
      rfl

end FirstBy

end ProgramGraphs
