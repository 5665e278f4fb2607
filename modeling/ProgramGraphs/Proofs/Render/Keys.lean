import ProgramGraphs.Proofs.FirstOccurrence
import ProgramGraphs.Render.GraphMl

/-!
# The types of declared attributes

A GraphML document declares each attribute name once, in the order in which the names
first occur.  Its type is meant to be that of the first value that is not missing
(`firstType`).  While the values are gone through, though, a name whose values were
missing so far and a name whose first value is a text have the same declaration, so a
text gives way to a later value of another type.  What is declared is the type of the
first value that is neither missing nor a text (`typeOf`):

```text
values of one name        firstType     typeOf
null, 1, "x"              long          long
"x", null, "y"            string        string
"x", 1                    string        long
```

One more value keeps this (`observe_declared`), and so do all values of a sequence of
attribute maps (`collectKeys_eq`).
-/

namespace ProgramGraphs.Render.GraphMl

/-- All entries of a sequence of attribute maps, in order. -/
def entriesOf (maps : List Attributes) : List (String × Attribute) := maps.flatMap (·.toList)

/-- The names of entries, each where it first occurs. -/
def namesIn (entries : List (String × Attribute)) : List String :=
  (entries.map Prod.fst).eraseDups

/-- The values that entries give to a name, in order. -/
def valuesIn (entries : List (String × Attribute)) (name : String) : List Attribute :=
  (entries.filter fun entry => entry.1 = name).map Prod.snd

/-- The type of the first value that is not missing, and text when all are missing. -/
def firstType (values : List Attribute) : AttributeType :=
  ((values.find? fun value => !value.isNull).map Attribute.type).getD .string

/-- The type of the first value that is neither missing nor a text, and text when there
is no such value. -/
def typeOf (values : List Attribute) : AttributeType :=
  ((values.map Attribute.type).find? fun type => type ≠ .string).getD .string

/-- The declarations for a row of entries. -/
def declared (entries : List (String × Attribute)) : List Key :=
  (namesIn entries).map fun name => ⟨name, typeOf (valuesIn entries name)⟩

/-! ## Types -/

theorem type_of_isNull {value : Attribute} (hnull : value.isNull = true) :
    value.type = .string := by
  cases value with
  | null => rfl
  | _ => contradiction

theorem typeOf_concat (values : List Attribute) (value : Attribute) :
    typeOf (values ++ [value]) =
      if typeOf values = .string then value.type else typeOf values := by
  unfold typeOf
  rw [List.map_append, List.find?_append]
  cases hfind : (values.map Attribute.type).find? fun type => type ≠ .string with
  | none =>
      rw [Option.none_or, Option.getD_none, if_pos rfl]
      by_cases hstring : value.type = .string <;> simp [hstring]
  | some type =>
      have hother : type ≠ .string := by simpa using List.find?_some hfind
      rw [Option.some_or, Option.getD_some, if_neg hother]

theorem typeOf_eq_string_iff {values : List Attribute} :
    typeOf values = .string ↔ ∀ value ∈ values, value.type = .string := by
  induction values using List.reverseRecOn with
  | nil => exact iff_of_true rfl fun value hvalue => absurd hvalue List.not_mem_nil
  | append_singleton values value ih =>
      rw [typeOf_concat, List.forall_mem_append, List.forall_mem_singleton, ← ih]
      split
      · rename_i hstring
        exact (and_iff_right hstring).symm
      · rename_i hother
        exact iff_of_false hother fun hboth => hother hboth.1

theorem exists_type_eq {values : List Attribute} (hother : typeOf values ≠ .string) :
    ∃ value ∈ values, value.type = typeOf values := by
  unfold typeOf at hother ⊢
  cases hfind : (values.map Attribute.type).find? fun type => type ≠ .string with
  | none => rw [hfind] at hother; exact absurd rfl hother
  | some type => exact List.mem_map.mp (List.mem_of_find?_eq_some hfind)

/-- Further values leave a type other than text as it is. -/
theorem typeOf_append_of_ne {values : List Attribute} (hother : typeOf values ≠ .string)
    (more : List Attribute) : typeOf (values ++ more) = typeOf values := by
  induction more using List.reverseRecOn with
  | nil => rw [List.append_nil]
  | append_singleton more value ih => rw [← List.append_assoc, typeOf_concat, ih, if_neg hother]

/-- The types agree when the first value present is no text, and only texts keep a first
text. -/
theorem typeOf_eq_firstType_iff (values : List Attribute) :
    typeOf values = firstType values ↔
      (firstType values = .string → ∀ value ∈ values, value.type = .string) := by
  rw [← typeOf_eq_string_iff]
  constructor
  · intro hsame hstring
    rw [hsame, hstring]
  · intro hkeeps
    by_cases hstring : firstType values = .string
    · rw [hkeeps hstring, hstring]
    · -- all values before the first one present are missing, so they count as texts
      unfold firstType at hstring ⊢
      cases hfind : values.find? fun value => !value.isNull with
      | none => rw [hfind] at hstring; exact absurd rfl hstring
      | some first =>
          rw [hfind] at hstring
          obtain ⟨-, before, after, rfl, hnull⟩ := List.find?_eq_some_iff_append.mp hfind
          have hbefore : typeOf before = .string := by
            refine typeOf_eq_string_iff.mpr fun value hvalue => type_of_isNull ?_
            simpa using hnull value hvalue
          have hfirst : typeOf (before ++ [first]) = first.type := by
            rw [typeOf_concat, if_pos hbefore]
          rw [List.append_cons, typeOf_append_of_ne (hfirst ▸ hstring), hfirst]
          rfl

/-! ## Declarations -/

theorem mem_namesIn {entries : List (String × Attribute)} {name : String} :
    name ∈ namesIn entries ↔ ∃ value, (name, value) ∈ entries := by
  rw [namesIn, List.mem_eraseDups, List.mem_map]
  constructor
  · rintro ⟨entry, hentry, rfl⟩
    exact ⟨entry.2, hentry⟩
  · rintro ⟨value, hentry⟩
    exact ⟨(name, value), hentry, rfl⟩

theorem mem_valuesIn {entries : List (String × Attribute)} {name : String} {value : Attribute} :
    value ∈ valuesIn entries name ↔ (name, value) ∈ entries := by
  rw [valuesIn, List.mem_map]
  constructor
  · rintro ⟨⟨other, value⟩, hentry, rfl⟩
    obtain ⟨hmem, hname⟩ := List.mem_filter.mp hentry
    obtain rfl : other = name := of_decide_eq_true hname
    exact hmem
  · intro hmem
    exact ⟨(name, value), List.mem_filter.mpr ⟨hmem, decide_eq_true rfl⟩, rfl⟩

theorem nodup_namesIn (entries : List (String × Attribute)) : (namesIn entries).Nodup :=
  nodup_eraseDups _

theorem valuesIn_concat (entries : List (String × Attribute)) (entry : String × Attribute)
    (name : String) :
    valuesIn (entries ++ [entry]) name =
      if entry.1 = name then valuesIn entries name ++ [entry.2] else valuesIn entries name := by
  unfold valuesIn
  rw [List.filter_append, List.map_append]
  by_cases hname : entry.1 = name <;> simp [hname]

/-- A value of a declared name may change its type; another name is declared last. -/
theorem observe_map {names : List String} (hnodup : names.Nodup) (type : String → AttributeType)
    (name : String) (value : Attribute) :
    observe name value (names.map fun other => ⟨other, type other⟩) =
      if name ∈ names then
        names.map fun other =>
          ⟨other, if other = name ∧ type other = .string then value.type else type other⟩
      else (names.map fun other => ⟨other, type other⟩) ++ [⟨name, value.type⟩] := by
  induction names with
  | nil => rfl
  | cons other names ih =>
      obtain ⟨hother, hnodup⟩ := List.nodup_cons.mp hnodup
      rw [List.map_cons, observe]
      by_cases hsame : other = name
      · subst hsame
        -- the names after it are different ones
        have hrest : (names.map fun next =>
              (⟨next, if next = other ∧ type next = .string then value.type
                else type next⟩ : Key)) =
            names.map fun next => ⟨next, type next⟩ := by
          refine List.map_congr_left fun next hnext => ?_
          have hne : next ≠ other := ne_of_mem_of_not_mem hnext hother
          rw [if_neg fun hboth => hne hboth.1]
        rw [if_pos rfl, if_pos List.mem_cons_self, List.map_cons, hrest]
        by_cases hstring : type other = .string
        · by_cases hnull : value.isNull = true
          · simp [hstring, hnull, type_of_isNull hnull]
          · simp [hstring, hnull]
        · simp [hstring]
      · have hmem : name ∈ other :: names ↔ name ∈ names := by simp [Ne.symm hsame]
        rw [if_neg hsame, ih hnodup, if_congr hmem rfl rfl]
        split <;> simp [hsame]

/-- **One more value** is declared with those before it. -/
theorem observe_declared (entries : List (String × Attribute)) (entry : String × Attribute) :
    observe entry.1 entry.2 (declared entries) = declared (entries ++ [entry]) := by
  have hmem : entry.1 ∈ entries.map Prod.fst ↔ entry.1 ∈ namesIn entries :=
    List.mem_eraseDups.symm
  rw [declared, observe_map (nodup_namesIn entries), declared]
  conv_rhs =>
    rw [namesIn, List.map_append, List.map_singleton, eraseDups_concat, if_congr hmem rfl rfl]
  split
  · refine List.map_congr_left fun name _ => ?_
    rw [valuesIn_concat]
    by_cases hname : entry.1 = name
    · subst hname
      rw [if_pos rfl, typeOf_concat]
      simp
    · simp [hname, Ne.symm hname]
  · rename_i hnew
    have hkeep : (namesIn entries).map (fun name =>
          (⟨name, typeOf (valuesIn (entries ++ [entry]) name)⟩ : Key)) =
        (namesIn entries).map fun name => ⟨name, typeOf (valuesIn entries name)⟩ := by
      refine List.map_congr_left fun name hname => ?_
      rw [valuesIn_concat, if_neg fun hsame : entry.1 = name => hnew (hsame ▸ hname)]
    have hnone : valuesIn entries entry.1 = [] := by
      refine List.eq_nil_iff_forall_not_mem.mpr fun value hvalue => hnew ?_
      exact mem_namesIn.mpr ⟨value, mem_valuesIn.mp hvalue⟩
    have htype : typeOf (valuesIn (entries ++ [entry]) entry.1) = entry.2.type := by
      rw [valuesIn_concat, if_pos rfl, hnone]
      exact typeOf_concat [] entry.2
    rw [List.map_append, List.map_singleton, htype]
    exact congrArg (· ++ _) hkeep.symm

/-- **What is declared** for a sequence of attribute maps. -/
theorem collectKeys_eq (maps : List Attributes) : collectKeys maps = declared (entriesOf maps) := by
  have hfold : ∀ entries : List (String × Attribute),
      entries.foldl (fun keys entry => observe entry.1 entry.2 keys) [] = declared entries := by
    intro entries
    induction entries using List.reverseRecOn with
    | nil => rfl
    | append_singleton entries entry ih =>
        rw [List.foldl_append, ih]
        exact observe_declared entries entry
  exact hfold (entriesOf maps)

theorem mem_collectKeys {maps : List Attributes} {key : Key} :
    key ∈ collectKeys maps ↔
      key.name ∈ namesIn (entriesOf maps) ∧
        key.type = typeOf (valuesIn (entriesOf maps) key.name) := by
  rw [collectKeys_eq, declared, List.mem_map]
  constructor
  · rintro ⟨name, hname, rfl⟩
    exact ⟨hname, rfl⟩
  · rintro ⟨hname, htype⟩
    exact ⟨key.name, hname, congrArg (Key.mk key.name) htype.symm⟩

theorem map_name_collectKeys (maps : List Attributes) :
    (collectKeys maps).map Key.name = namesIn (entriesOf maps) := by
  rw [collectKeys_eq, declared, List.map_map]
  exact List.map_id _

/-- **The types of declared attributes.**  Every name that occurs is declared once, in
the order of first occurrence, with the type of its first value that is neither missing
nor a text.  That is the type of the first value that is not missing, unless this is a
text and a value of another type follows.  A type other than text is never changed. -/
theorem collectKeys_types (maps : List Attributes) :
    (collectKeys maps).map Key.name = namesIn (entriesOf maps) ∧
      ((collectKeys maps).map Key.name).Nodup ∧
      (∀ key ∈ collectKeys maps, key.type = typeOf (valuesIn (entriesOf maps) key.name)) ∧
      (∀ key ∈ collectKeys maps,
        key.type = firstType (valuesIn (entriesOf maps) key.name) ↔
          (firstType (valuesIn (entriesOf maps) key.name) = .string →
            ∀ value ∈ valuesIn (entriesOf maps) key.name, value.type = .string)) ∧
      ∀ (more : List Attributes), ∀ key ∈ collectKeys maps,
        key.type ≠ .string → key ∈ collectKeys (maps ++ more) := by
  refine ⟨map_name_collectKeys maps, ?_, fun key hkey => (mem_collectKeys.mp hkey).2,
    fun key hkey => ?_, fun more key hkey hother => ?_⟩
  · rw [map_name_collectKeys]
    exact nodup_namesIn _
  · rw [(mem_collectKeys.mp hkey).2]
    exact typeOf_eq_firstType_iff _
  · obtain ⟨hname, htype⟩ := mem_collectKeys.mp hkey
    obtain ⟨value, hvalue⟩ := mem_namesIn.mp hname
    have hentries : entriesOf (maps ++ more) = entriesOf maps ++ entriesOf more :=
      List.flatMap_append
    have hvalues : valuesIn (entriesOf (maps ++ more)) key.name =
        valuesIn (entriesOf maps) key.name ++ valuesIn (entriesOf more) key.name := by
      rw [hentries, valuesIn, List.filter_append, List.map_append]
      rfl
    apply mem_collectKeys.mpr
    constructor
    · apply mem_namesIn.mpr
      exact ⟨value, hentries ▸ List.mem_append_left _ hvalue⟩
    · rw [hvalues, typeOf_append_of_ne (htype ▸ hother), htype]

/-- A count that is missing at first, and is a text at last. -/
theorem collectKeys_types_of_count :
    let maps : List Attributes :=
      [⟨[("count", .null), ("name", .text "x")]⟩, ⟨[("name", .null), ("count", .int 1)]⟩]
    (⟨"count", .long⟩ : Key) ∈ collectKeys maps ∧
      (⟨"count", .long⟩ : Key) ∈ collectKeys (maps ++ [⟨[("count", .text "many")]⟩]) := by
  intro maps
  have hkey : (⟨"count", .long⟩ : Key) ∈ collectKeys maps := by
    have hkeys : collectKeys maps = [⟨"count", .long⟩, ⟨"name", .string⟩] := by decide
    exact hkeys ▸ List.mem_cons_self
  obtain ⟨-, -, -, -, hkeeps⟩ := collectKeys_types maps
  exact ⟨hkey, hkeeps _ _ hkey (by decide)⟩

/-- A text gives way to a count: the declaration does not have the type of the first
value that is not missing. -/
theorem text_gives_way :
    ¬ ∀ maps : List Attributes, ∀ key ∈ collectKeys maps,
      key.type = firstType (valuesIn (entriesOf maps) key.name) := by
  intro hfirst
  have hkey := hfirst [⟨[("k", .text "x")]⟩, ⟨[("k", .int 1)]⟩] ⟨"k", .long⟩ (by decide)
  exact absurd hkey (by decide)

end ProgramGraphs.Render.GraphMl
