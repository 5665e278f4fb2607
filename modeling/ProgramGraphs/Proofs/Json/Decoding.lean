import ProgramGraphs.Class.Json
import ProgramGraphs.Json.Variant
import ProgramGraphs.Proofs.Json.Printed

/-!
# Decoders that recover what was written

A decoder *recovers* something from a value if it gets it from the node of the value
(`Recovers`).  For records it is enough to say so of each field: the members of an
object *tell* the values of the fields if each field in turn has a member from which its
value is recovered, or is left out and has the value that a missing member stands for
(`Tells`).  Members of later fields leave the earlier ones alone
(`fill_cons_of_notMem`), so the induction goes along the fields (`exists_fill_of_tells`).

A tagged alternative takes its tag and hands the other members on in their order
(`ofMembers_tag`).
-/

namespace ProgramGraphs.Json

/-- The node of a value in a document. -/
abbrev Value.toNode (value : Value) : Node := value.node Numeral.toNode

/-- The members of an object in a document. -/
abbrev Members.ofValues (members : List (String × Value)) : Members :=
  Value.memberNodes Numeral.toNode members

theorem Members.ofValues_cons (key : String) (value : Value) (rest : List (String × Value)) :
    Members.ofValues ((key, value) :: rest) =
      .member (some key) value.toNode (Members.ofValues rest) := rfl

/-- A decoder recovers something from a value, which can be printed and read. -/
structure Recovers {A : Type} (decode : Decoder A) (value : Value) (a : A) : Prop where
  decode_eq : decode value.toNode = .ok a
  floatsWhole : value.FloatsWhole

/-! ## Scalars and lists -/

theorem toNode_integer {value : Int} (hlow : -0x8000000000000000 ≤ value)
    (hhigh : value ≤ 0xFFFFFFFFFFFFFFFF) : (Value.integer value).toNode = .integer value := by
  unfold Value.toNode Value.node Numeral.toNode
  rw [Numeral.integer?_ofInt hlow hhigh]

theorem toNode_natural {n : Nat} (hlt : n < 0x10000000000000000) :
    (Value.natural n).toNode = .integer n :=
  toNode_integer (by omega) (by omega)

theorem recovers_string (text : String) : Recovers Decode.string (.string text) text :=
  ⟨rfl, trivial⟩

theorem recovers_bool (value : Bool) : Recovers Decode.bool (.bool value) value :=
  ⟨rfl, trivial⟩

theorem recovers_word64 (word : UInt64) : Recovers Decode.word64 (.word word) word := by
  have hlt : word.toNat < 0x10000000000000000 := word.toNat_lt
  refine ⟨?_, trivial⟩
  unfold Value.word
  rw [toNode_natural hlt, Decode.word64, if_pos (by omega), Int.toNat_natCast, UInt64.ofNat_toNat]

theorem recovers_word32 (word : UInt32) :
    Recovers Decode.word32 (.natural word.toNat) word := by
  have hlt : word.toNat < 0x100000000 := word.toNat_lt
  refine ⟨?_, trivial⟩
  rw [toNode_natural (by omega), Decode.word32, if_pos (by omega), Int.toNat_natCast,
    UInt32.ofNat_toNat]

section Encoding

variable {A : Type} {decode : Decoder A} {encode : A → Value}

theorem recovers_list (hencode : ∀ a, Recovers decode (encode a) a) (values : List A) :
    Recovers (Decode.list decode) (.list (values.map encode)) values := by
  constructor
  · show Decode.items decode (Value.itemNodes Numeral.toNode (values.map encode)) = .ok values
    induction values with
    | nil => rfl
    | cons a values ih =>
        rw [List.map_cons, Value.itemNodes, Decode.items, ih, (hencode a).decode_eq]
        rfl
  · show Value.ItemsWhole (values.map encode)
    rw [itemsWhole_iff]
    intro item hitem
    obtain ⟨a, -, rfl⟩ := List.mem_map.mp hitem
    exact (hencode a).floatsWhole

theorem recovers_optional {value : Value} {a : A} (hvalue : Recovers decode value a)
    (hnull : value.toNode ≠ .null) : Recovers (Decode.optional decode) value (some a) := by
  refine ⟨?_, hvalue.floatsWhole⟩
  unfold Decode.optional
  split
  · rename_i heq
    exact absurd heq hnull
  · rw [hvalue.decode_eq]
    rfl

end Encoding

/-! ## Records -/

namespace Record

/-- What was met of the first field, and of the others. -/
def Slots.cons {A : Type} {types : List Type} (slot : Option A) (slots : Slots types) :
    Slots (A :: types) :=
  (slot, slots)

/-- The value of the first field, and those of the others. -/
def Values.cons {A : Type} {types : List Type} (a : A) (values : Values types) :
    Values (A :: types) :=
  (a, values)

namespace Fields

/-- The names of fields. -/
def names : {types : List Type} → Fields types → List String
  | [], .nil => []
  | _ :: _, .cons field rest => field.name :: rest.names

/-- Members tell the values of fields: the value of each field in turn is recovered from a
member, or is the one that a missing member stands for. -/
inductive Tells :
    {types : List Type} → Fields types → List (String × Value) → Values types → Prop where
  | nil : Tells .nil [] ()
  | member {A : Type} {types : List Type} {field : Field A} {fields : Fields types}
      {value : Value} {a : A} {values : Values types} {members : List (String × Value)}
      (hvalue : Recovers field.decode value a) (htells : fields.Tells members values) :
      Tells (.cons field fields) ((field.name, value) :: members) (.cons a values)
  | missing {A : Type} {types : List Type} {field : Field A} {fields : Fields types}
      {a : A} {values : Values types} {members : List (String × Value)}
      (habsent : field.absent = some a) (htells : fields.Tells members values) :
      Tells (.cons field fields) members (.cons a values)

variable {types : List Type} {fields : Fields types} {values : Values types}
  {members : List (String × Value)}

theorem Tells.sublist_names (htells : fields.Tells members values) :
    (members.map Prod.fst).Sublist fields.names := by
  induction htells with
  | nil => exact List.Sublist.slnil
  | member _ _ ih => exact ih.cons_cons _
  | missing _ _ ih => exact ih.cons _

theorem Tells.notMem (htells : fields.Tells members values) {name : String}
    (hname : name ∉ fields.names) : name ∉ members.map Prod.fst :=
  fun hmem => hname (htells.sublist_names.subset hmem)

theorem Tells.membersWhole (htells : fields.Tells members values) :
    Value.MembersWhole members := by
  induction htells with
  | nil => trivial
  | member hvalue _ ih => exact ⟨hvalue.floatsWhole, ih⟩
  | missing _ _ ih => exact ih

theorem place_cons_of_ne {A : Type} {field : Field A} {slot : Option A} {key : String}
    (hkey : key ≠ field.name) (slots : Slots types) (node : Node) :
    (Fields.cons field fields).place (.cons slot slots) key node =
      (fields.place slots key node).map (Slots.cons slot <$> ·) :=
  if_neg hkey

/-- Members of other names leave a field alone. -/
theorem fill_cons_of_notMem {A : Type} {field : Field A} {slot : Option A}
    (hname : field.name ∉ members.map Prod.fst) (slots : Slots types) :
    (Fields.cons field fields).fill (.cons slot slots) (Members.ofValues members) =
      Slots.cons slot <$> fields.fill slots (Members.ofValues members) := by
  induction members generalizing slots with
  | nil => rfl
  | cons member members ih =>
      rw [List.map_cons, List.mem_cons, not_or] at hname
      rw [Members.ofValues_cons, fill, fill, place_cons_of_ne (Ne.symm hname.1)]
      cases hplace : fields.place slots member.1 member.2.toNode with
      | none =>
          rw [Option.map_none]
          cases member.2.toNode.pass with
          | ok passed => exact ih hname.2 slots
          | error defect => rfl
      | some result =>
          cases result with
          | ok placed => exact ih hname.2 placed
          | error error => rfl

/-- The first field takes the member of its name. -/
theorem fill_cons_member {A : Type} {field : Field A} {value : Value} {a : A}
    (hvalue : Recovers field.decode value a) (slots : Slots types)
    (members : List (String × Value)) :
    (Fields.cons field fields).fill (.cons none slots)
        (Members.ofValues ((field.name, value) :: members)) =
      (Fields.cons field fields).fill (.cons (some a) slots) (Members.ofValues members) := by
  have hplace : (Fields.cons field fields).place (.cons none slots) field.name value.toNode =
      some (.ok (.cons (some a) slots)) := by
    refine (if_pos rfl).trans ?_
    rw [hvalue.decode_eq]
    rfl
  rw [Members.ofValues_cons, fill, hplace]

/-- A field has the value of its member, or else the one that a missing member stands
for. -/
theorem finish_cons {A : Type} {field : Field A} {slot : Option A} {a : A}
    (hvalue : slot.or field.absent = some a) (slots : Slots types) :
    (Fields.cons field fields).finish (.cons slot slots) =
      Values.cons a <$> fields.finish slots := by
  rw [Slots.cons, finish]
  simp only [hvalue]
  rfl

/-- **Members give the values that they tell.** -/
theorem exists_fill_of_tells (htells : fields.Tells members values)
    (hnodup : fields.names.Nodup) :
    ∃ slots, fields.fill fields.unmet (Members.ofValues members) = .ok slots ∧
      fields.finish slots = .ok values := by
  induction htells with
  | nil => exact ⟨(), rfl, rfl⟩
  | @member A types field fields value a values members hvalue htells ih =>
      obtain ⟨hname, hnodup⟩ := List.nodup_cons.mp hnodup
      obtain ⟨slots, hfill, hfinish⟩ := ih hnodup
      refine ⟨.cons (some a) slots, ?_, ?_⟩
      · show (Fields.cons field fields).fill (.cons none fields.unmet) _ = _
        rw [fill_cons_member hvalue, fill_cons_of_notMem (htells.notMem hname), hfill]
        rfl
      · rw [finish_cons Option.some_or, hfinish]
        rfl
  | @missing A types field fields a values members habsent htells ih =>
      obtain ⟨hname, hnodup⟩ := List.nodup_cons.mp hnodup
      obtain ⟨slots, hfill, hfinish⟩ := ih hnodup
      refine ⟨.cons none slots, ?_, ?_⟩
      · show (Fields.cons field fields).fill (.cons none fields.unmet) _ = _
        rw [fill_cons_of_notMem (htells.notMem hname), hfill]
        rfl
      · rw [finish_cons (Option.none_or.trans habsent), hfinish]
        rfl

end Fields

theorem ofMembers_of_tells {types : List Type} {fields : Fields types} {values : Values types}
    {members : List (String × Value)} (htells : fields.Tells members values)
    (hnodup : fields.names.Nodup) :
    ofMembers fields (Members.ofValues members) = .ok values := by
  obtain ⟨slots, hfill, hfinish⟩ := Fields.exists_fill_of_tells htells hnodup
  rw [ofMembers, hfill]
  exact hfinish

/-- **A record is recovered from members that tell the values of its fields.** -/
theorem recovers_object {A : Type} {types : List Type} {name : String} {fields : Fields types}
    {build : Values types → A} {members : List (String × Value)} {values : Values types} {a : A}
    (hnodup : fields.names.Nodup) (htells : fields.Tells members values)
    (hbuild : build values = a) : Recovers (decode name fields build) (.object members) a := by
  refine ⟨?_, htells.membersWhole⟩
  show build <$> ofMembers fields (Members.ofValues members) = .ok a
  rw [ofMembers_of_tells htells hnodup, ← hbuild]
  rfl

end Record

/-! ## Tagged alternatives -/

namespace Variant.Alternative

variable {A : Type} {alternative : Alternative A} {variant : Tagged A} {opened : Nat}
  {others : List (String × Value)}

/-- The members after the tag are kept in their order. -/
theorem separate_others (form : TagForm) (hkeys : alternative.tag ∉ others.map Prod.fst)
    (hchecked : ∀ member ∈ others, member.2.toNode.check opened = .ok ())
    (earlier : List (Option String × Node)) :
    alternative.separate form opened (some variant) earlier (Members.ofValues others) =
      .ok (variant, (Members.ofValues others).prepend earlier) := by
  induction others generalizing earlier with
  | nil => rfl
  | cons member others ih =>
      rw [List.map_cons, List.mem_cons, not_or] at hkeys
      obtain ⟨hmember, hothers⟩ := List.forall_mem_cons.mp hchecked
      rw [Members.ofValues_cons, separate, if_neg (Ne.symm hkeys.1), hmember]
      exact ih hkeys.2 hothers _

/-- **The variant that the tag names is decoded from the members after the tag.** -/
theorem ofMembers_tag (form : TagForm) {name : String}
    (hfind : alternative.variants.find? (·.name == name) = some variant)
    (hkeys : alternative.tag ∉ others.map Prod.fst)
    (hchecked : ∀ member ∈ others, member.2.toNode.check opened = .ok ()) :
    alternative.ofMembers form opened
        (Members.ofValues ((alternative.tag, .string name) :: others)) =
      variant.ofMembers (Members.ofValues others) := by
  have htag : alternative.variant form (.string name) = .ok variant := by
    simp only [Alternative.variant, hfind]
  have hseparate : alternative.separate form opened none []
      (Members.ofValues ((alternative.tag, .string name) :: others)) =
        .ok (variant, Members.ofValues others) := by
    rw [Members.ofValues_cons, separate, if_pos rfl, Value.toNode, Value.node, htag]
    exact separate_others form hkeys hchecked []
  rw [ofMembers, hseparate]
  rfl

theorem ofMembers_tag_alone (form : TagForm) {name : String} {a : A}
    (hfind : alternative.variants.find? (·.name == name) = some variant)
    (hvariant : variant.ofMembers .close = .ok a) :
    alternative.ofMembers form opened (Members.ofValues [(alternative.tag, .string name)]) =
      .ok a :=
  (ofMembers_tag form hfind (by simp) (by simp)).trans hvariant

end Variant.Alternative

/-- A variant with one field is decoded from the member of the field. -/
theorem Variant.Tagged.ofMembers_withField {A B : Type} {decode : Decoder B} {value : Value} {b : B}
    (hvalue : Recovers decode value b) (name description field : String) (build : B → A) :
    (Tagged.withField name description field decode build).ofMembers
      (Members.ofValues [(field, value)]) = .ok (build b) := by
  have htells : (Record.Fields.cons (.required field decode) .nil).Tells [(field, value)]
      (.cons b ()) := .member hvalue .nil
  show (fun values : Record.Values [B] => build values.1) <$> Record.ofMembers _ _ = _
  rw [Record.ofMembers_of_tells htells (List.nodup_singleton field)]
  rfl

end ProgramGraphs.Json
