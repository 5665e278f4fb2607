import ProgramGraphs.Proofs.Json.Decoding
import ProgramGraphs.Snapshot.Read

/-!
# Snapshots survive printing

Every section of a snapshot is recovered from its JSON value: each is an object whose
members tell its fields, and an optional member that is left out tells that its value is
missing (`tells_optionalMember`).  A statement is different, since the members of its kind
stand between its own.  They are handed on in their order (`Parts.addAll_others`), and the
kind is decoded from them (`ofMembers_toMembers`).

So a snapshot is read back from its printed text, and loading the text ends as validating
the snapshot does (`holds_printed`).
-/

namespace ProgramGraphs

open Json

theorem DeclaredMethod.recovers (method : DeclaredMethod) :
    Recovers DeclaredMethod.decoder method.toJson method := by
  apply Record.recovers_object (by decide)
  · exact .member (recovers_string _) <| .member (recovers_bool _) .nil
  · rfl

theorem ClassInfo.recovers (info : ClassInfo) :
    Recovers ClassInfo.decoder info.toJson info := by
  apply Record.recovers_object (by decide)
  · exact .member (recovers_string _) <| .member (recovers_string _) <|
      .member (recovers_bool _) <| .member (recovers_word64 _) <|
      .member (recovers_word64 _) <| .member (recovers_word64 _) <|
      .member (recovers_list DeclaredMethod.recovers _) .nil
  · rfl

/-! ## Kinds of statements -/

section Kinds

open Variant (Alternative Tagged)

namespace Instruction

variable {opened : Nat}

theorem check_fields {field text : String} :
    ∀ member ∈ [(field, Value.string text)], member.2.toNode.check opened = .ok () := by
  intro member hmember
  rw [List.mem_singleton.mp hmember]
  rfl

theorem innerDecoder_object {variant : Tagged Instruction} {name : String}
    {instruction : Instruction} {others : List (String × Value)}
    (hfind : Instruction.alternative.variants.find? (·.name == name) = some variant)
    (hkeys : "op" ∉ others.map Prod.fst)
    (hchecked : ∀ member ∈ others, member.2.toNode.check 1 = .ok ())
    (hvariant : variant.ofMembers (Members.ofValues others) = .ok instruction) :
    innerDecoder (Value.object (("op", .string name) :: others)).toNode = .ok instruction :=
  (Alternative.ofMembers_tag .nameOrPlace hfind hkeys hchecked).trans hvariant

theorem recovers (instruction : Instruction) :
    Recovers innerDecoder instruction.toJson instruction := by
  constructor
  · cases instruction with
    | other => exact Alternative.ofMembers_tag_alone .nameOrPlace (by rfl) rfl
    | binaryOp text | unaryOp text | conditionalBranch text | invoke text | new text =>
        apply innerDecoder_object rfl (by simp) check_fields
        exact Tagged.ofMembers_withField (recovers_string text) ..
  · cases instruction <;> simp [toJson, Value.FloatsWhole, Value.MembersWhole]

theorem check_toJson (instruction : Instruction) (hopened : opened < 127) :
    instruction.toJson.toNode.check opened = .ok () := by
  cases instruction <;> exact if_pos hopened

end Instruction

namespace StatementKind

variable {opened : Nat}

theorem check_toMembers (kind : StatementKind) (hopened : opened < 127) :
    ∀ member ∈ kind.toMembers, member.2.toNode.check opened = .ok () := by
  intro member hmember
  cases kind with
  | normal instruction =>
      rcases List.mem_cons.mp hmember with rfl | hmember
      · rfl
      · rw [List.mem_singleton.mp hmember]
        exact instruction.check_toJson hopened
  | _ =>
      rw [List.mem_singleton.mp hmember]
      rfl

theorem membersWhole (kind : StatementKind) : Value.MembersWhole kind.toMembers := by
  cases kind with
  | normal instruction => exact ⟨trivial, instruction.recovers.floatsWhole, trivial⟩
  | _ => exact ⟨trivial, trivial⟩

/-- A kind is decoded from its members. -/
theorem ofMembers_toMembers (kind : StatementKind) :
    alternative.ofMembers .nameOrPlace 0 (Members.ofValues kind.toMembers) = .ok kind := by
  cases kind with
  | normal instruction =>
      refine (Alternative.ofMembers_tag .nameOrPlace rfl (by simp [alternative]) ?_).trans
        (Tagged.ofMembers_withField instruction.recovers ..)
      intro member hmember
      rw [List.mem_singleton.mp hmember]
      exact instruction.check_toJson (by omega)
  | _ => exact Alternative.ofMembers_tag_alone .nameOrPlace (by rfl) rfl

end StatementKind

end Kinds

namespace Snapshot

theorem recovers_indices (indices : List Index) :
    Recovers (Decode.list Decode.word64) (indicesToJson indices) indices :=
  recovers_list recovers_word64 indices

theorem Method.recovers (method : Method) : Recovers Method.decoder method.toJson method := by
  apply Record.recovers_object (by decide)
  · exact .member (recovers_string _) <| .member (recovers_word64 _) .nil
  · rfl

theorem CallSite.recovers (site : CallSite) : Recovers CallSite.decoder site.toJson site := by
  apply Record.recovers_object (by decide)
  · exact .member (recovers_word32 _) <| .member (recovers_indices _) .nil
  · rfl

theorem CallNode.recovers (node : CallNode) : Recovers CallNode.decoder node.toJson node := by
  apply Record.recovers_object (by decide)
  · exact .member (recovers_word64 _) <| .member (recovers_list CallSite.recovers _) .nil
  · rfl

theorem CallSection.recovers (callGraph : CallSection) :
    Recovers CallSection.decoder callGraph.toJson callGraph := by
  apply Record.recovers_object (by decide)
  · exact .member (recovers_list CallNode.recovers _) <| .member (recovers_indices _) .nil
  · rfl

/-! ## Statements -/

namespace Statement

theorem lineDecoder_integer {line : Int} (hlow : 0 ≤ line) (hhigh : line < 0x100000000) :
    lineDecoder (.integer line) = .ok (some (UInt32.ofNat line.toNat)) := by
  have hnumber : Decode.optional Decode.integer64 (.integer line) = .ok (some line) := by
    rw [Decode.optional, Decode.integer64, if_pos (by omega)]
    · rfl
    · exact Node.noConfusion
  rw [lineDecoder, hnumber]
  simp only [bind, Except.bind]
  rw [if_neg (by omega), if_pos hhigh]
  rfl

theorem lineDecoder_natural (line : UInt32) :
    lineDecoder (Value.natural line.toNat).toNode = .ok (some line) := by
  have hlt : line.toNat < 0x100000000 := line.toNat_lt
  rw [toNode_natural (by omega), lineDecoder_integer (by omega) (by omega), Int.toNat_natCast,
    UInt32.ofNat_toNat]

/-- The members that are not a statement's own are kept in their order. -/
theorem Parts.addAll_others {opened : Nat} {others : List (String × Value)}
    (hkeys : ∀ member ∈ others, member.1 ≠ "node" ∧ member.1 ≠ "position")
    (hchecked : ∀ member ∈ others, member.2.toNode.check opened = .ok ())
    (parts : Parts) (rest : List (String × Value)) :
    ∃ found, parts.addAll opened (Members.ofValues (others ++ rest)) =
        Parts.addAll opened { parts with others := found } (Members.ofValues rest) ∧
      Members.close.prepend found = (Members.ofValues others).prepend parts.others := by
  induction others generalizing parts with
  | nil => exact ⟨parts.others, rfl, rfl⟩
  | cons member others ih =>
      obtain ⟨hkey, hkeys⟩ := List.forall_mem_cons.mp hkeys
      obtain ⟨hmember, hothers⟩ := List.forall_mem_cons.mp hchecked
      obtain ⟨found, hadd, hfound⟩ :=
        ih hkeys hothers { parts with others := (some member.1, member.2.toNode) :: parts.others }
      refine ⟨found, ?_, hfound⟩
      rw [← hadd, List.cons_append, Members.ofValues_cons, addAll, add, if_neg hkey.1,
        if_neg hkey.2, hmember]

theorem Parts.addAll_node (opened : Nat) (node : Index) (rest : List (String × Value)) :
    Parts.addAll opened {} (Members.ofValues (("node", .word node) :: rest)) =
      Parts.addAll opened { node := some node } (Members.ofValues rest) := by
  have hadd : Parts.add opened {} "node" (Value.word node).toNode = .ok { node := some node } := by
    rw [add, if_pos rfl, (recovers_word64 node).decode_eq]
    rfl
  rw [Members.ofValues_cons, addAll, hadd]

theorem Parts.addAll_line (opened : Nat) {parts : Parts} (hline : parts.line = none)
    (line : Option UInt32) :
    parts.addAll opened
        (Members.ofValues (optionalMember "position" (fun line => .natural line.toNat) line)) =
      .ok { parts with line := line.map some } := by
  cases line with
  | none =>
      rw [Option.map_none, ← hline]
      rfl
  | some line =>
      have hadd : parts.add opened "position" (Value.natural line.toNat).toNode =
          .ok { parts with line := some (some line) } := by
        rw [add, if_neg (by decide), if_pos rfl, hline, lineDecoder_natural]
        rfl
      rw [optionalMember, Members.ofValues_cons, addAll, hadd]
      rfl

theorem Parts.finish_eq {node : Index} {kind : StatementKind}
    {others : List (Option String × Node)} (line : Option (Option UInt32))
    (hkind : StatementKind.alternative.ofMembers .nameOrPlace 0
      (Members.close.prepend others) = .ok kind) :
    Parts.finish { node := some node, line, others } =
      .ok { node, kind, line := line.getD none } := by
  unfold finish
  dsimp only
  rw [hkind]
  rfl

theorem floatsWhole (statement : Statement) : statement.toJson.FloatsWhole := by
  show Value.MembersWhole _
  rw [membersWhole_iff]
  intro member hmember
  rw [List.cons_append, List.mem_cons, List.mem_append] at hmember
  rcases hmember with rfl | hmember | hmember
  · trivial
  · exact (membersWhole_iff _).mp statement.kind.membersWhole member hmember
  · cases hline : statement.line with
    | none =>
        rw [hline] at hmember
        exact absurd hmember List.not_mem_nil
    | some line =>
        rw [hline] at hmember
        rw [List.mem_singleton.mp hmember]
        trivial

theorem recovers {opened : Nat} (hopened : opened + 1 < 127) (statement : Statement) :
    Recovers (decoder opened) statement.toJson statement := by
  refine ⟨?_, statement.floatsWhole⟩
  have hkeys : ∀ member ∈ statement.kind.toMembers, member.1 ≠ "node" ∧ member.1 ≠ "position" := by
    cases statement.kind <;> simp [StatementKind.toMembers]
  obtain ⟨found, hothers, hfound⟩ := Parts.addAll_others hkeys
    (statement.kind.check_toMembers hopened) { node := some statement.node }
    (optionalMember "position" (fun line => .natural line.toNat) statement.line)
  have hkind : StatementKind.alternative.ofMembers .nameOrPlace 0 (Members.close.prepend found) =
      .ok statement.kind := by
    rw [hfound]
    exact statement.kind.ofMembers_toMembers
  have hline : (statement.line.map some).getD none = statement.line := by
    cases statement.line <;> rfl
  show (Parts.addAll (opened + 1) {} (Members.ofValues (_ :: _ ++ _)) >>= Parts.finish) = _
  rw [List.cons_append, Parts.addAll_node, hothers, Parts.addAll_line _ rfl]
  exact (Parts.finish_eq _ hkind).trans (by rw [hline])

end Statement

/-! ## Sections -/

section Optional

variable {A : Type} {decode : Decoder A} {encode : A → Value} {types : List Type}
  {fields : Record.Fields types} {values : Record.Values types} {members : List (String × Value)}

theorem tells_optionalMember (hencode : ∀ a, Recovers decode (encode a) a)
    (hnull : ∀ a, (encode a).toNode ≠ .null) (key : String) (value : Option A)
    (htells : fields.Tells members values) :
    (Record.Fields.cons (.withDefault key (Decode.optional decode) none) fields).Tells
      (optionalMember key encode value ++ members) (.cons value values) := by
  cases value with
  | none => exact .missing rfl htells
  | some a => exact .member (recovers_optional (hencode a) (hnull a)) htells

theorem tells_lastMember (hencode : ∀ a, Recovers decode (encode a) a)
    (hnull : ∀ a, (encode a).toNode ≠ .null) (key : String) (value : Option A) :
    (Record.Fields.cons (.withDefault key (Decode.optional decode) none) .nil).Tells
      (optionalMember key encode value) (.cons value ()) := by
  have htells := tells_optionalMember hencode hnull key value .nil
  rwa [List.append_nil] at htells

end Optional

theorem Edge.recovers (edge : Edge) : Recovers Edge.decoder edge.toJson edge := by
  have hnull : ∀ text, (Value.string text).toNode ≠ .null := fun _ => Node.noConfusion
  apply Record.recovers_object (by decide)
  · exact .member (recovers_word64 _) <| .member (recovers_word64 _) <|
      tells_optionalMember recovers_string hnull _ _ <| tells_lastMember recovers_string hnull ..
  · rfl

theorem DependencySection.recovers (graph : DependencySection) :
    Recovers DependencySection.decoder graph.toJson graph := by
  apply Record.recovers_object (by decide)
  · exact .member (recovers_list (Statement.recovers (by decide)) _) <|
      .member (recovers_list Edge.recovers _) <|
      tells_lastMember recovers_indices (fun _ => Node.noConfusion) ..
  · rfl

/-- **A snapshot is recovered from its JSON value.** -/
theorem recovers (snapshot : Snapshot) : Recovers Snapshot.decoder snapshot.toJson snapshot := by
  apply Record.recovers_object (by decide)
  · exact .member (recovers_string _) <| .member (recovers_list ClassInfo.recovers _) <|
      .member (recovers_list Method.recovers _) <| .member (CallSection.recovers _) <|
      tells_lastMember DependencySection.recovers (fun _ => Node.noConfusion) ..
  · rfl

/-! ## Texts -/

/-- A text holds a snapshot: the snapshot is read from it, and what validating the
snapshot gives is what loading the text gives. -/
structure Holds (text : String) (snapshot : Snapshot) : Prop where
  decode_eq : Decode.text Snapshot.decoder text = .ok snapshot
  ofDocument_eq : ofDocument (.ofText text) =
    snapshot.validate.mapError fun reference => .snapshot (.dangling reference)

theorem holds_of_ofText {text : String} {snapshot : Snapshot}
    (htext : Document.ofText text = ⟨snapshot.toJson.toNode, false⟩) : Holds text snapshot := by
  have hdecode : Decode.document Snapshot.decoder (.ofText text) = .ok snapshot := by
    rw [htext, Decode.document, snapshot.recovers.decode_eq]
    rfl
  refine ⟨hdecode, ?_⟩
  rw [ofDocument, hdecode]
  dsimp only
  cases snapshot.validate with
  | ok view => rfl
  | error reference => rfl

/-- **Printing and reading a snapshot gives the snapshot back**, so it is also validated
as the snapshot itself is. -/
theorem holds_printed (snapshot : Snapshot) :
    Holds snapshot.toJson.compact snapshot ∧ Holds snapshot.toJson.pretty snapshot := by
  have hwhole := snapshot.recovers.floatsWhole
  constructor
  · apply holds_of_ofText
    rw [← Document.ofTextBy_toNode, Document.ofTextBy_compact hwhole]
  · apply holds_of_ofText
    rw [← Document.ofTextBy_toNode, Document.ofTextBy_pretty hwhole]

end Snapshot

end ProgramGraphs
