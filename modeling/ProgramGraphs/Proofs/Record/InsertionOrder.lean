import Mathlib.Data.Finset.Card
import ProgramGraphs.Proofs.FirstOccurrence
import ProgramGraphs.Proofs.Json.Printed
import ProgramGraphs.Record.Attributes

/-!
# Attribute maps are ordered by insertion

However often keys are inserted, an attribute map has each of them once, where it was
inserted first, and with the value that was inserted last (`ofList_ordered`).  The JSON
object of the map lists the same pairs in the same order.

Both halves follow from what one insertion does to the keys (`keys_insert`) and to the
value of a key (`get?_insert`), by induction from the end of the history.

Two keys may be inserted in either order.  Where one of them is there already, the other
finds or takes the same place both times, and the maps are equal (`insert_comm`); two new
keys stand at the end, in the order in which they came (`toList_insert_insert`).
-/

namespace ProgramGraphs

namespace Json.Value

/-- A text without blanks does not depend on what follows it. -/
theorem compactOnto_append (value : Value) (tail more : List Char) :
    value.compactOnto (tail ++ more) = value.compactOnto tail ++ more := by
  rw [compactOnto_eq 0, compactOnto_eq 0, laidOnto_append]

/-- A member without blanks. -/
def compactMember (member : String × Value) : List Char :=
  quoteChars member.1 ++ ':' :: member.2.compact.toList

theorem compactMembers_cons (before : List Char) (member : String × Value)
    (members : List (String × Value)) (tail : List Char) :
    compactMembers before (member :: members) tail =
      before ++ compactMember member ++ compactMembers [','] members tail := by
  have hvalue := compactOnto_append member.2 [] (compactMembers [','] members tail)
  rw [List.nil_append] at hvalue
  rw [compactMembers, hvalue, compactMember, compact, String.toList_ofList]
  simp only [List.append_assoc, List.cons_append]

theorem compactMembers_eq_intercalate (members : List (String × Value)) (tail : List Char) :
    compactMembers [] members tail =
      List.intercalate [','] (members.map compactMember) ++ tail := by
  induction members with
  | nil => rfl
  | cons member members ih =>
      rw [compactMembers_cons, List.nil_append]
      cases members with
      | nil => simp [compactMembers]
      | cons next members =>
          rw [compactMembers_cons, List.nil_append] at ih
          rw [compactMembers_cons, List.append_assoc [','], ih]
          simp only [List.map_cons, List.intercalate_cons_cons, List.append_assoc]

/-- An object without blanks is its members between braces, with commas between them. -/
theorem toList_compact_object (members : List (String × Value)) :
    (Value.object members).compact.toList =
      '\x7b' :: List.intercalate [','] (members.map compactMember) ++ ['\x7d'] := by
  rw [compact, String.toList_ofList, compactOnto, compactMembers_eq_intercalate,
    List.cons_append]

end Json.Value

namespace Attributes

variable {entries history : List (String × Attribute)} {attributes : Attributes}
  {key other : String} {value otherValue : Attribute}

/-- The keys of a map, in its order. -/
def keys (attributes : Attributes) : List String := attributes.toList.map Prod.fst

/-- The last insertion of a key in a history had the value. -/
def LastInserted (history : List (String × Attribute)) (key : String) (value : Attribute) :
    Prop :=
  ∃ before after, history = before ++ (key, value) :: after ∧ key ∉ after.map Prod.fst

/-! ## One insertion -/

theorem insertEntry_of_notMem (hnew : key ∉ entries.map Prod.fst) :
    insertEntry key value entries = entries ++ [(key, value)] := by
  induction entries with
  | nil => rfl
  | cons entry entries ih =>
      obtain ⟨hne, hrest⟩ := not_or.mp (List.mem_cons.not.mp hnew)
      rw [insertEntry, if_neg (Ne.symm hne), ih hrest, List.cons_append]

theorem map_fst_insertEntry_of_mem (hold : key ∈ entries.map Prod.fst) :
    (insertEntry key value entries).map Prod.fst = entries.map Prod.fst := by
  induction entries with
  | nil => exact absurd hold List.not_mem_nil
  | cons entry entries ih =>
      rw [insertEntry]
      by_cases hhead : entry.1 = key
      · rw [if_pos hhead, List.map_cons, List.map_cons, hhead]
      · have hrest := (List.mem_cons.mp hold).resolve_left (Ne.symm hhead)
        rw [if_neg hhead, List.map_cons, List.map_cons, ih hrest]

theorem lookup_cons (entry : String × Attribute) (entries : List (String × Attribute))
    (key : String) :
    (entry :: entries).lookup key = if key = entry.1 then some entry.2 else entries.lookup key := by
  by_cases hsame : key = entry.1
  · rw [if_pos hsame, hsame, List.lookup_cons_self]
  · rw [if_neg hsame, List.lookup_cons, beq_false_of_ne hsame]

theorem lookup_insertEntry (key other : String) (value : Attribute)
    (entries : List (String × Attribute)) :
    (insertEntry key value entries).lookup other =
      if other = key then some value else entries.lookup other := by
  induction entries with
  | nil => exact lookup_cons (key, value) [] other
  | cons entry entries ih =>
      rw [insertEntry, lookup_cons entry]
      by_cases hhead : entry.1 = key
      · rw [if_pos hhead, lookup_cons, hhead]
        split <;> rfl
      · rw [if_neg hhead, lookup_cons, ih]
        by_cases hsame : other = key
        · rw [if_pos hsame, if_pos hsame, if_neg fun heq => hhead (heq.symm.trans hsame)]
        · rw [if_neg hsame, if_neg hsame]

theorem keys_insert_of_mem (hold : key ∈ attributes.keys) :
    (attributes.insert key value).keys = attributes.keys := map_fst_insertEntry_of_mem hold

theorem toList_insert_of_notMem (hnew : key ∉ attributes.keys) :
    (attributes.insert key value).toList = attributes.toList ++ [(key, value)] :=
  insertEntry_of_notMem hnew

/-- An insertion adds its key at the end, unless the key is there. -/
theorem keys_insert (attributes : Attributes) (key : String) (value : Attribute) :
    (attributes.insert key value).keys =
      if key ∈ attributes.keys then attributes.keys else attributes.keys ++ [key] := by
  by_cases hold : key ∈ attributes.keys
  · rw [if_pos hold, keys_insert_of_mem hold]
  · rw [if_neg hold, keys, toList_insert_of_notMem hold, List.map_append, List.map_singleton]
    rfl

/-- An insertion sets the value of its key and of no other. -/
theorem get?_insert (attributes : Attributes) (key other : String) (value : Attribute) :
    (attributes.insert key value).get? other =
      if other = key then some value else attributes.get? other :=
  lookup_insertEntry key other value attributes.toList

/-! ## A history of insertions -/

theorem ofList_concat (history : List (String × Attribute)) (entry : String × Attribute) :
    ofList (history ++ [entry]) = (ofList history).insert entry.1 entry.2 := by
  rw [ofList, List.foldl_append]
  rfl

/-- **The keys of a history stand in the order of their first insertion**, each once. -/
theorem keys_ofList (history : List (String × Attribute)) :
    (ofList history).keys = (history.map Prod.fst).eraseDups := by
  induction history using List.reverseRecOn with
  | nil => rfl
  | append_singleton history entry ih =>
      rw [ofList_concat, keys_insert, ih, List.map_append, List.map_singleton, eraseDups_concat]
      simp only [List.mem_eraseDups]

theorem mem_keys_ofList : key ∈ (ofList history).keys ↔ key ∈ history.map Prod.fst := by
  rw [keys_ofList, List.mem_eraseDups]

theorem nodup_keys_ofList (history : List (String × Attribute)) : (ofList history).keys.Nodup := by
  rw [keys_ofList]
  exact nodup_eraseDups _

/-- A further insertion is the last one of its key and of no other. -/
theorem lastInserted_concat {entry : String × Attribute} :
    LastInserted (history ++ [entry]) key value ↔
      if key = entry.1 then entry.2 = value else LastInserted history key value := by
  constructor
  · rintro ⟨before, after, hhistory, hlast⟩
    rcases List.eq_nil_or_concat after with rfl | ⟨after, last, rfl⟩
    · obtain ⟨-, heq⟩ := List.append_inj' hhistory rfl
      obtain rfl := List.singleton_inj.mp heq
      rw [if_pos rfl]
    · rw [List.concat_eq_append, ← List.cons_append, ← List.append_assoc] at hhistory
      obtain ⟨rfl, heq⟩ := List.append_inj' hhistory rfl
      obtain rfl := List.singleton_inj.mp heq
      rw [List.concat_eq_append, List.map_append, List.mem_append, not_or] at hlast
      rw [if_neg fun heq => hlast.2 (List.mem_singleton.mpr heq)]
      exact ⟨before, after, rfl, hlast.1⟩
  · intro hlast
    by_cases hsame : key = entry.1
    · rw [if_pos hsame] at hlast
      subst hsame hlast
      exact ⟨history, [], rfl, List.not_mem_nil⟩
    · rw [if_neg hsame] at hlast
      obtain ⟨before, after, rfl, hnot⟩ := hlast
      refine ⟨before, after ++ [entry], by simp, ?_⟩
      rw [List.map_append, List.mem_append, not_or]
      exact ⟨hnot, fun hmem => hsame (List.mem_singleton.mp hmem)⟩

/-- **A key has the value of its last insertion.** -/
theorem get?_ofList_eq_some_iff :
    (ofList history).get? key = some value ↔ LastInserted history key value := by
  induction history using List.reverseRecOn with
  | nil =>
      refine iff_of_false nofun ?_
      rintro ⟨before, after, hempty, -⟩
      exact List.cons_ne_nil _ _ (List.append_eq_nil_iff.mp hempty.symm).2
  | append_singleton history entry ih =>
      rw [ofList_concat, get?_insert, lastInserted_concat]
      by_cases hsame : key = entry.1
      · rw [if_pos hsame, if_pos hsame, Option.some_inj]
      · rw [if_neg hsame, if_neg hsame, ih]

/-- Where no key is repeated, a key has the value that stands beside it. -/
theorem lookup_eq_some_iff (hnodup : (entries.map Prod.fst).Nodup) :
    entries.lookup key = some value ↔ (key, value) ∈ entries := by
  induction entries with
  | nil => simp
  | cons entry entries ih =>
      obtain ⟨hnew, hnodup⟩ := List.nodup_cons.mp hnodup
      rw [lookup_cons, List.mem_cons, ← ih hnodup]
      by_cases hsame : key = entry.1
      · have hrest : entries.lookup key ≠ some value := fun hfound =>
          hnew (hsame ▸ List.mem_map_of_mem ((ih hnodup).mp hfound))
        rw [if_pos hsame, or_iff_left hrest, Option.some_inj, hsame, Prod.ext_iff]
        exact ⟨fun heq => ⟨rfl, heq.symm⟩, fun heq => heq.2.symm⟩
      · rw [if_neg hsame, or_iff_right fun heq => hsame (congrArg Prod.fst heq)]

/-- What stands in the map are the last insertions. -/
theorem mem_toList_ofList :
    (key, value) ∈ (ofList history).toList ↔ LastInserted history key value := by
  rw [← get?_ofList_eq_some_iff, get?, lookup_eq_some_iff (nodup_keys_ofList history)]

theorem isSome_get?_ofList :
    ((ofList history).get? key).isSome = true ↔ key ∈ history.map Prod.fst := by
  rw [Option.isSome_iff_exists, ← mem_keys_ofList, keys, List.mem_map]
  simp only [get?_ofList_eq_some_iff, ← mem_toList_ofList]
  constructor
  · rintro ⟨value, hmem⟩
    exact ⟨(key, value), hmem, rfl⟩
  · rintro ⟨⟨_, value⟩, hmem, rfl⟩
    exact ⟨value, hmem⟩

theorem size_ofList (history : List (String × Attribute)) :
    (ofList history).size = (history.map Prod.fst).toFinset.card := by
  have hkeys : (ofList history).keys.toFinset = (history.map Prod.fst).toFinset := by
    ext key
    rw [List.mem_toFinset, List.mem_toFinset, mem_keys_ofList]
  rw [← hkeys, List.toFinset_card_of_nodup (nodup_keys_ofList history), keys, List.length_map]
  rfl

/-! ## Two insertions -/

theorem insertEntry_comm (hne : key ≠ other)
    (hold : key ∈ entries.map Prod.fst ∨ other ∈ entries.map Prod.fst) :
    insertEntry other otherValue (insertEntry key value entries) =
      insertEntry key value (insertEntry other otherValue entries) := by
  induction entries with
  | nil => simp at hold
  | cons entry entries ih =>
      by_cases hkey : entry.1 = key
      · simp only [insertEntry, hkey, hne, if_true, if_false]
      · by_cases hother : entry.1 = other
        · simp only [insertEntry, hother, Ne.symm hne, if_true, if_false]
        · have hrest : key ∈ entries.map Prod.fst ∨ other ∈ entries.map Prod.fst :=
            hold.imp (fun hmem => (List.mem_cons.mp hmem).resolve_left (Ne.symm hkey))
              fun hmem => (List.mem_cons.mp hmem).resolve_left (Ne.symm hother)
          simp only [insertEntry, hkey, hother, if_false, ih hrest]

/-- The order of two insertions makes no difference where one of the keys is there. -/
theorem insert_comm (hne : key ≠ other) (hold : key ∈ attributes.keys ∨ other ∈ attributes.keys) :
    (attributes.insert key value).insert other otherValue =
      (attributes.insert other otherValue).insert key value :=
  congrArg Attributes.mk (insertEntry_comm hne hold)

/-- Two new keys stand at the end, in the order in which they came. -/
theorem toList_insert_insert (hne : key ≠ other) (hkey : key ∉ attributes.keys)
    (hother : other ∉ attributes.keys) :
    ((attributes.insert key value).insert other otherValue).toList =
      attributes.toList ++ [(key, value), (other, otherValue)] := by
  have hnew : other ∉ (attributes.insert key value).keys := by
    rw [keys_insert, if_neg hkey, List.mem_append, not_or]
    exact ⟨hother, fun hmem => hne (List.mem_singleton.mp hmem).symm⟩
  rw [toList_insert_of_notMem hnew, toList_insert_of_notMem hkey, List.append_assoc]
  rfl

theorem get?_insert_comm (hne : key ≠ other) (name : String) :
    ((attributes.insert key value).insert other otherValue).get? name =
      ((attributes.insert other otherValue).insert key value).get? name := by
  simp only [get?_insert]
  by_cases hother : name = other
  · rw [if_pos hother, if_neg fun heq => hne (heq.symm.trans hother), if_pos hother]
  · rw [if_neg hother, if_neg hother]

/-- Whichever of two keys comes first, the pairs are the same. -/
theorem perm_insert_comm (hne : key ≠ other) :
    ((attributes.insert key value).insert other otherValue).toList.Perm
      ((attributes.insert other otherValue).insert key value).toList := by
  by_cases hold : key ∈ attributes.keys ∨ other ∈ attributes.keys
  · rw [insert_comm hne hold]
  · obtain ⟨hkey, hother⟩ := not_or.mp hold
    rw [toList_insert_insert hne hkey hother, toList_insert_insert hne.symm hother hkey]
    exact (List.Perm.swap _ _ []).append_left _

/-! ## The main statement -/

/-- **An attribute map is ordered by insertion.**  After any history its keys are those
that were inserted, each once and in the order of their first insertion, and each with the
value of its last one; a lookup finds this value, and the JSON text lists the same pairs in
the same order.  Two more insertions with different keys may be swapped: the maps have the
same pairs, and they are equal unless both keys are new, when the order of the two pairs at
the end is all that differs. -/
theorem ofList_ordered (history : List (String × Attribute)) :
    let attributes := ofList history
    let inserted := history.map Prod.fst
    attributes.keys.Nodup ∧
      (attributes.keys.Pairwise fun first second =>
        inserted.idxOf first < inserted.idxOf second) ∧
      (∀ key, key ∈ attributes.keys ↔ key ∈ inserted) ∧
      (∀ key value, (key, value) ∈ attributes.toList ↔ LastInserted history key value) ∧
      (∀ key value, attributes.get? key = some value ↔ LastInserted history key value) ∧
      (∀ key, (attributes.get? key).isSome = true ↔ key ∈ inserted) ∧
      attributes.size = inserted.toFinset.card ∧
      attributes.toJson.compact.toList =
        '\x7b' :: List.intercalate [','] (attributes.toList.map fun entry =>
          Json.quoteChars entry.1 ++ ':' :: entry.2.toJson.compact.toList) ++ ['\x7d'] ∧
      ∀ (key other : String) (value otherValue : Attribute), key ≠ other →
        let first := (attributes.insert key value).insert other otherValue
        let second := (attributes.insert other otherValue).insert key value
        (∀ name, first.get? name = second.get? name) ∧
          first.size = second.size ∧
          first.toList.Perm second.toList ∧
          (key ∈ inserted ∨ other ∈ inserted → first = second) ∧
          (key ∉ inserted → other ∉ inserted →
            first.toList = attributes.toList ++ [(key, value), (other, otherValue)] ∧
              second.toList = attributes.toList ++ [(other, otherValue), (key, value)]) := by
  intro attributes inserted
  have hplaces : attributes.keys.Pairwise fun first second =>
      inserted.idxOf first < inserted.idxOf second := by
    rw [keys_ofList]
    exact pairwise_idxOf_eraseDups inserted
  refine ⟨nodup_keys_ofList history, hplaces, fun key => mem_keys_ofList,
    fun key value => mem_toList_ofList, fun key value => get?_ofList_eq_some_iff,
    fun key => isSome_get?_ofList, size_ofList history, ?_, ?_⟩
  · rw [toJson, Json.Value.toList_compact_object, List.map_map]
    rfl
  · intro key other value otherValue hne first second
    have hperm : first.toList.Perm second.toList := perm_insert_comm hne
    refine ⟨get?_insert_comm hne, hperm.length_eq, hperm, fun hold => ?_, fun hkey hother => ?_⟩
    · exact insert_comm hne (hold.imp mem_keys_ofList.mpr mem_keys_ofList.mpr)
    · rw [← mem_keys_ofList] at hkey hother
      exact ⟨toList_insert_insert hne hkey hother, toList_insert_insert hne.symm hother hkey⟩

/-- A key whose last value is missing, and two new ones after it. -/
theorem ofList_ordered_overwritten :
    let attributes := ofList [("b", .int 1), ("a", .text "x"), ("b", .null)]
    attributes.keys.Nodup ∧ attributes.get? "b" = some .null ∧ attributes.size = 2 ∧
      ((attributes.insert "c" .null).insert "d" .null).toList.Perm
        ((attributes.insert "d" .null).insert "c" .null).toList ∧
      (attributes.insert "c" .null).insert "a" .null =
        (attributes.insert "a" .null).insert "c" .null := by
  intro attributes
  obtain ⟨hnodup, -, -, -, hget, -, hsize, -, hswap⟩ :=
    ofList_ordered [("b", .int 1), ("a", .text "x"), ("b", .null)]
  refine ⟨hnodup, ?_, ?_, ?_, ?_⟩
  · exact (hget "b" .null).mpr ⟨[("b", .int 1), ("a", .text "x")], [], rfl, List.not_mem_nil⟩
  · rw [hsize]
    rfl
  · exact (hswap "c" "d" .null .null (by decide)).2.2.1
  · exact (hswap "c" "a" .null .null (by decide)).2.2.2.1 (Or.inr (by decide))

end Attributes

end ProgramGraphs
