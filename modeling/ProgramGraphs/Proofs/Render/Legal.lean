import ProgramGraphs.Proofs.Render.Keys
import ProgramGraphs.Proofs.Render.Lossless

/-!
# The characters of GraphML documents

XML 1.0 has no form at all for some characters (`Allowed`), and where a tab or a line
break stands raw in an attribute value, its reader sees a blank.  GraphML documents are
written without regard to either: only the characters of markup are turned into
entities.  So a document of a class graph or of a canonical graph is a legal text
exactly when the names that it shows are, and the ids of classes stay as they are exactly
when their names have no tabs and no line breaks.

```text
id of a class        document               as an XML reader has it
p.A<TAB>B            id="p.A<TAB>B"         p.A B
p.A B                id="p.A B"             p.A B
```

A literal of the document, a numeral and the text of a floating-point number are legal
always.
-/

namespace ProgramGraphs

namespace Render.GraphMl

/-! ## Legal texts -/

/-- The characters that XML 1.0 allows in a document (production `Char`). -/
def Allowed (c : Char) : Prop :=
  c.toNat = 0x9 ∨ c.toNat = 0xA ∨ c.toNat = 0xD ∨ (0x20 ≤ c.toNat ∧ c.toNat ≤ 0xD7FF) ∨
    (0xE000 ≤ c.toNat ∧ c.toNat ≤ 0xFFFD) ∨ 0x10000 ≤ c.toNat

instance : DecidablePred Allowed := fun _ => inferInstanceAs (Decidable (_ ∨ _))

/-- Every character of the text is allowed in a document. -/
def Legal (text : List Char) : Prop := ∀ c ∈ text, Allowed c

instance : DecidablePred Legal := fun text => List.decidableBAll _ text

@[simp] theorem legal_nil : Legal [] := by simp [Legal]

@[simp] theorem legal_cons {c : Char} {text : List Char} :
    Legal (c :: text) ↔ Allowed c ∧ Legal text :=
  List.forall_mem_cons

@[simp] theorem legal_append {first second : List Char} :
    Legal (first ++ second) ↔ Legal first ∧ Legal second :=
  List.forall_mem_append

theorem legal_append_right {literal : List Char} (hliteral : Legal literal) (text : List Char) :
    Legal (text ++ literal) ↔ Legal text :=
  legal_append.trans (and_iff_left hliteral)

theorem legal_append_left {literal : List Char} (hliteral : Legal literal) (text : List Char) :
    Legal (literal ++ text) ↔ Legal text :=
  legal_append.trans (and_iff_right hliteral)

theorem legal_flatMap {α : Type} {items : List α} {lines : α → List Char} :
    Legal (items.flatMap lines) ↔ ∀ item ∈ items, Legal (lines item) :=
  List.forall_mem_flatMap

theorem legal_escapeText (c : Char) : Legal (escapeText c) ↔ Allowed c := by
  unfold escapeText
  split_ifs with hamp hless hgreater
  · subst hamp
    decide
  · subst hless
    decide
  · subst hgreater
    decide
  · simp

theorem legal_escapeQuoted (c : Char) : Legal (escapeQuoted c) ↔ Allowed c := by
  unfold escapeQuoted
  split_ifs with hquote
  · subst hquote
    decide
  · exact legal_escapeText c

theorem legal_text (content : String) : Legal (text content) ↔ Legal content.toList := by
  rw [text, legal_flatMap]
  exact forall₂_congr fun c _ => legal_escapeText c

theorem legal_quoted (content : List Char) : Legal (quoted content) ↔ Legal content := by
  have hquote : Allowed '"' := by decide
  simp [quoted, hquote]

theorem legal_quoted_inner (content : String) :
    Legal (quoted (inner content)) ↔ Legal content.toList := by
  rw [legal_quoted, inner, legal_flatMap]
  exact forall₂_congr fun c _ => legal_escapeQuoted c

/-! ## Legal lines -/

theorem legal_keyId (domain : Domain) (name : String) :
    Legal (keyId domain name) ↔ Legal name.toList := by
  have hmark : Legal domain.mark.toList := by cases domain <;> decide
  rw [keyId_eq, legal_quoted_inner, String.toList_append, legal_append_left hmark]

theorem legal_declaration (domain : Domain) (key : Key) :
    Legal (declaration domain key) ↔ Legal key.name.toList := by
  have hopening : Legal "  <key id=".toList := by decide
  have hfor : Legal " for=".toList := by decide
  have hname : Legal " attr.name=".toList := by decide
  have htype : Legal " attr.type=".toList := by decide
  have hclosing : Legal "/>\n".toList := by decide
  have helement : Legal (quoted domain.element.toList) := by cases domain <;> decide
  have htypeName : Legal (quoted key.type.name.toList) := by cases key.type <;> decide
  unfold declaration
  rw [legal_append_right hclosing, legal_append_right htypeName,
    legal_append_right htype, legal_append, legal_append_right hname, legal_append_right helement,
    legal_append_right hfor, legal_append_left hopening, legal_keyId, legal_quoted_inner, and_self]

/-- The names and the texts of an attribute map that a document shows. -/
def LegalEntries (attributes : Attributes) : Prop :=
  ∀ entry ∈ attributes.shown, Legal entry.1.toList ∧ Legal entry.2.toList

theorem legal_dataLines (domain : Domain) (attributes : Attributes) :
    Legal (dataLines domain attributes) ↔ LegalEntries attributes := by
  have hopening : Legal "      <data key=".toList := by decide
  have hend : Legal ">".toList := by decide
  have hclosing : Legal "</data>\n".toList := by decide
  rw [dataLines, legal_flatMap]
  refine forall₂_congr fun entry _ => ?_
  unfold dataLine
  rw [legal_append_right hclosing, legal_append, legal_append_right hend,
    legal_append_left hopening, legal_keyId, legal_text]

theorem legal_vertexLines (vertex : VertexRecord) :
    Legal (vertexLines vertex) ↔ Legal vertex.id.toList ∧ LegalEntries vertex.attributes := by
  have hopening : Legal "    <node id=".toList := by decide
  have hend : Legal ">\n".toList := by decide
  have hclosing : Legal "    </node>\n".toList := by decide
  unfold vertexLines
  rw [legal_append_right hclosing, legal_append, legal_append_right hend,
    legal_append_left hopening, legal_quoted_inner, legal_dataLines]

theorem allowed_of_isDigit {c : Char} (hdigit : c.isDigit = true) : Allowed c := by
  have hrange : '0'.toNat ≤ c.toNat ∧ c.toNat ≤ '9'.toNat := by
    simpa [Char.isDigit, Char.le_def, UInt32.le_iff_toNat_le] using hdigit
  have hzero : '0'.toNat = 0x30 := rfl
  have hnine : '9'.toNat = 0x39 := rfl
  unfold Allowed
  omega

theorem legal_toDigits (n : Nat) : Legal (Nat.toDigits 10 n) := fun _ hc =>
  allowed_of_isDigit (Nat.isDigit_of_mem_toDigits (by omega) (by omega) hc)

theorem legal_edgeLines (edge : EdgeRecord) (number : Nat) :
    Legal (edgeLines edge number) ↔
      Legal edge.source.toList ∧ Legal edge.target.toList ∧ LegalEntries edge.attributes := by
  have hopening : Legal "    <edge id=".toList := by decide
  have hsource : Legal " source=".toList := by decide
  have htarget : Legal " target=".toList := by decide
  have hend : Legal ">\n".toList := by decide
  have hclosing : Legal "    </edge>\n".toList := by decide
  have hnumber : Legal (quoted ('e' :: Nat.toDigits 10 number)) :=
    (legal_quoted _).mpr (legal_cons.mpr ⟨by decide, legal_toDigits number⟩)
  unfold edgeLines
  rw [legal_append_right hclosing, legal_append, legal_append_right hend, legal_append,
    legal_append_right htarget, legal_append, legal_append_right hsource,
    legal_append_right hnumber, and_iff_right hopening, legal_quoted_inner, legal_quoted_inner,
    legal_dataLines, and_assoc]

/-! ## Legal documents -/

/-- The texts of the values are legal; what is shown of other values always is. -/
def LegalValue : Attribute → Prop
  | .text value => Legal value.toList
  | _ => True

theorem legal_int (value : Int) : Legal (toString value).toList := by
  have hnat : ∀ n : Nat, Legal (Nat.repr n).toList := fun n => by
    rw [Nat.toList_repr]
    exact legal_toDigits n
  cases value with
  | ofNat n => exact hnat n
  | negSucc n =>
      have htext : (toString (Int.negSucc n)).toList = '-' :: (Nat.repr (n + 1)).toList :=
        String.toList_append
      rw [htext, legal_cons]
      exact ⟨by decide, hnat (n + 1)⟩

theorem legal_numeral (n : Nat) : Legal (Decimal.numeral n) := legal_toDigits n

theorem legal_zeros (count : Nat) : Legal (Decimal.zeros count) := by
  intro c hc
  rw [List.eq_of_mem_replicate hc]
  decide

theorem legal_take {text : List Char} (htext : Legal text) (count : Nat) :
    Legal (text.take count) :=
  fun c hc => htext c (List.mem_of_mem_take hc)

theorem legal_drop {text : List Char} (htext : Legal text) (count : Nat) :
    Legal (text.drop count) :=
  fun c hc => htext c (List.mem_of_mem_drop hc)

theorem legal_renderPlain (decimal : Decimal.Digits) : Legal decimal.renderPlain := by
  have hshown := legal_numeral decimal.digits
  have hpoint : Allowed '.' := by decide
  have hzero : Allowed '0' := by decide
  unfold Decimal.Digits.renderPlain
  dsimp only
  split_ifs with hwhole hplaces
  · simp [hshown, legal_zeros, hpoint, hzero]
  · simp [legal_take hshown, legal_drop hshown, hpoint]
  · simp [hshown, legal_zeros, hpoint, hzero]

theorem legal_renderExponent (decimal : Decimal.Digits) (signed : Bool) :
    Legal (decimal.renderExponent signed) := by
  have hshown := legal_numeral decimal.digits
  have hfirst : Legal (if (Decimal.numeral decimal.digits).length ≤ 1 then []
      else '.' :: (Decimal.numeral decimal.digits).drop 1) := by
    split
    · exact legal_nil
    · exact legal_cons.mpr ⟨by decide, legal_drop hshown 1⟩
  have hsign : Legal (if decimal.leading < 0 then ['-'] else if signed then ['+'] else []) := by
    split_ifs <;> decide
  have hmark : Allowed 'e' := by decide
  unfold Decimal.Digits.renderExponent
  simp only [legal_append, legal_cons]
  exact ⟨⟨⟨legal_take hshown 1, hfirst⟩, hmark, hsign⟩, legal_numeral _⟩

theorem legal_render (decimal : Decimal.Digits) (layout : Decimal.Layout) :
    Legal (decimal.render layout) := by
  unfold Decimal.Digits.render
  split
  · exact legal_renderPlain decimal
  · exact legal_renderExponent decimal _

theorem legal_float (number : Float) :
    Legal (Decimal.render Decimal.Layout.display number).toList := by
  unfold Decimal.render
  cases Decimal.Reading.ofBits number.toBits with
  | notANumber => decide
  | infinite negative => cases negative <;> decide
  | zero negative => cases negative <;> decide
  | nonzero negative magnitude =>
      have hminus : Allowed '-' := by decide
      have hdigits := legal_render (magnitude.shortest .up) Decimal.Layout.display
      cases negative <;>
        simpa [Decimal.Reading.render, Decimal.Layout.display, hminus] using hdigits

theorem legal_display (value : Attribute) : Legal value.display.toList ↔ LegalValue value := by
  cases value with
  | bool value => cases value <;> exact iff_of_true (by decide) trivial
  | int value => exact iff_of_true (legal_int value.toInt) trivial
  | float value => exact iff_of_true (legal_float value) trivial
  | text value => exact Iff.rfl
  | null => exact iff_of_true legal_nil trivial

/-- The names of an attribute map are legal, those of missing values too, and so are its
texts. -/
def LegalMap (attributes : Attributes) : Prop :=
  ∀ entry ∈ attributes.toList, Legal entry.1.toList ∧ LegalValue entry.2

theorem legalMap_iff (attributes : Attributes) :
    LegalMap attributes ↔
      (∀ entry ∈ attributes.toList, Legal entry.1.toList) ∧ LegalEntries attributes := by
  constructor
  · intro hlegal
    refine ⟨fun entry hentry => (hlegal entry hentry).1, fun entry hentry => ?_⟩
    obtain ⟨⟨name, value⟩, hmem, hshown⟩ := List.mem_filterMap.mp hentry
    have hsome : (if value.isNull then none else some (name, value.display)) = some entry := hshown
    split at hsome
    · cases hsome
    · obtain rfl := Option.some.inj hsome
      exact ⟨(hlegal _ hmem).1, (legal_display value).mpr (hlegal _ hmem).2⟩
  · rintro ⟨hnames, hentries⟩ ⟨name, value⟩ hmem
    refine ⟨hnames _ hmem, ?_⟩
    cases hnull : value.isNull with
    | true => cases value <;> trivial
    | false =>
        have hshown : (name, value.display) ∈ attributes.shown :=
          List.mem_filterMap.mpr ⟨_, hmem, if_neg (by simp [hnull])⟩
        exact (legal_display value).mp (hentries _ hshown).2

theorem legal_keys_iff (maps : List Attributes) :
    (∀ key ∈ collectKeys maps, Legal key.name.toList) ↔
      ∀ attributes ∈ maps, ∀ entry ∈ attributes.toList, Legal entry.1.toList := by
  have hnames : (∀ key ∈ collectKeys maps, Legal key.name.toList) ↔
      ∀ name ∈ namesIn (entriesOf maps), Legal name.toList := by
    rw [← map_name_collectKeys, List.forall_mem_map]
  rw [hnames]
  constructor
  · intro hlegal attributes hattributes entry hentry
    exact hlegal _ (mem_namesIn.mpr ⟨entry.2, List.mem_flatMap.mpr ⟨_, hattributes, hentry⟩⟩)
  · intro hlegal name hname
    obtain ⟨value, hentry⟩ := mem_namesIn.mp hname
    obtain ⟨attributes, hattributes, hmem⟩ := List.mem_flatMap.mp hentry
    exact hlegal attributes hattributes _ hmem

/-- **Which documents are legal.** -/
theorem legal_document_iff (graph : GraphRecord) :
    Legal (document graph) ↔
      (∀ vertex ∈ graph.vertices, Legal vertex.id.toList ∧ LegalMap vertex.attributes) ∧
      ∀ edge ∈ graph.edges,
        Legal edge.source.toList ∧ Legal edge.target.toList ∧ LegalMap edge.attributes := by
  have hheader : Legal header.toList := by
    unfold header
    repeat rw [String.toList_append, legal_append]
    decide
  have hgraph : Legal "  <graph id=\"G\" edgedefault=\"directed\">\n".toList := by decide
  have hfooter : Legal "  </graph>\n</graphml>\n".toList := by decide
  have hkeys : ∀ domain (maps : List Attributes),
      Legal ((collectKeys maps).flatMap (declaration domain)) ↔
        ∀ attributes ∈ maps, ∀ entry ∈ attributes.toList, Legal entry.1.toList := by
    intro domain maps
    rw [legal_flatMap, ← legal_keys_iff]
    exact forall₂_congr fun key _ => legal_declaration domain key
  have hvertices : Legal (graph.vertices.flatMap vertexLines) ↔
      ∀ vertex ∈ graph.vertices, Legal vertex.id.toList ∧ LegalEntries vertex.attributes := by
    rw [legal_flatMap]
    exact forall₂_congr fun vertex _ => legal_vertexLines vertex
  have hedges : Legal (graph.edges.zipIdx.flatMap fun edge => edgeLines edge.1 edge.2) ↔
      ∀ edge ∈ graph.edges,
        Legal edge.source.toList ∧ Legal edge.target.toList ∧ LegalEntries edge.attributes := by
    conv_rhs => rw [← List.zipIdx_map_fst 0 graph.edges, List.forall_mem_map]
    rw [legal_flatMap]
    exact forall₂_congr fun edge _ => legal_edgeLines edge.1 edge.2
  unfold document
  rw [legal_append_right hfooter, legal_append, legal_append, legal_append_right hgraph,
    legal_append, legal_append_left hheader, hkeys, hkeys, hvertices]
  simp only [List.forall_mem_map, legalMap_iff]
  constructor
  · rintro ⟨⟨⟨hvertexNames, hedgeNames⟩, hvertex⟩, hedge⟩
    refine ⟨fun vertex hmem => ?_, fun edge hmem => ?_⟩
    · exact ⟨(hvertex vertex hmem).1, hvertexNames vertex hmem, (hvertex vertex hmem).2⟩
    · obtain ⟨hsource, htarget, hentries⟩ := hedges.mp hedge edge hmem
      exact ⟨hsource, htarget, hedgeNames edge hmem, hentries⟩
  · rintro ⟨hvertex, hedge⟩
    refine ⟨⟨⟨fun vertex hmem => (hvertex vertex hmem).2.1,
      fun edge hmem => (hedge edge hmem).2.2.1⟩, fun vertex hmem => ?_⟩,
      hedges.mpr fun edge hmem => ?_⟩
    · exact ⟨(hvertex vertex hmem).1, (hvertex vertex hmem).2.2⟩
    · exact ⟨(hedge edge hmem).1, (hedge edge hmem).2.1, (hedge edge hmem).2.2.2⟩

/-! ## Attribute values -/

/-- The characters for which an XML reader puts a blank where they stand raw in an
attribute value. -/
def Blanked (c : Char) : Prop := c = '\t' ∨ c = '\n' ∨ c = '\r'

instance : DecidablePred Blanked := fun _ => inferInstanceAs (Decidable (_ ∨ _))

/-- A text that stays as it is in an attribute value. -/
def Steady (text : List Char) : Prop := ∀ c ∈ text, ¬ Blanked c

instance : DecidablePred Steady := fun text => List.decidableBAll _ text

/-- The attribute value that a character ends, as it stands in the document, with the
name of its attribute. -/
def Mode.ended : Mode → Char → List (String × List Char)
  | .value _ name reversed, c => if c = '"' then [(name, reversed.reverse)] else []
  | _, _ => []

/-- The attribute values in a row of characters as they stand there, entities and all. -/
def rawValuesFrom (mode : Mode) : List Char → List (String × List Char)
  | [] => []
  | c :: rest => mode.ended c ++ rawValuesFrom (mode.step c).2 rest

/-- The attributes of the tag that a reader is in. -/
def Mode.attributes : Mode → List (String × String)
  | .text _ | .tagName _ _ => []
  | .inside tag | .attributeName tag _ | .equals tag _ | .value tag _ _ => tag.attributes

/-- The attributes of a piece, with decoded values. -/
def Piece.attributes : Piece → List (String × String)
  | .tag found => found.attributes
  | .stray => []

/-- An attribute with its entities decoded. -/
def decoded (value : String × List Char) : String × String :=
  (value.1, String.ofList (decode value.2))

/-- One more character completes the attributes of a tag, or adds one to those so far. -/
theorem attributes_step (mode : Mode) (c : Char) (hwhole : .stray ∉ (mode.step c).1) :
    (mode.step c).1.flatMap Piece.attributes ++ (mode.step c).2.attributes =
      mode.attributes ++ (mode.ended c).map decoded := by
  cases mode with
  | text reversed =>
      rw [Mode.step]
      split_ifs <;> rfl
  | tagName before reversed =>
      rw [Mode.step]
      split_ifs <;> rfl
  | inside tag =>
      rw [Mode.step]
      split_ifs <;> simp [Piece.attributes, Mode.attributes, Mode.ended]
  | attributeName tag reversed =>
      rw [Mode.step]
      split_ifs <;> simp [Mode.attributes, Mode.ended]
  | equals tag name =>
      rw [Mode.step] at hwhole ⊢
      split_ifs at hwhole ⊢
      · simp [Mode.attributes, Mode.ended]
      · exact absurd List.mem_cons_self hwhole
  | value tag name reversed =>
      rw [Mode.step] at hwhole ⊢
      split_ifs at hwhole ⊢ with hquote hless
      · simp [Mode.attributes, Mode.ended, hquote, decoded, collected]
      · exact absurd List.mem_cons_self hwhole
      · simp [Mode.attributes, Mode.ended, hquote]

/-- **The attributes of the tags are the decoded values of the document.** -/
theorem flatMap_attributes_piecesFrom (text : List Char) {mode : Mode}
    (hwhole : .stray ∉ piecesFrom mode text) :
    (piecesFrom mode text).flatMap Piece.attributes =
      mode.attributes ++ (rawValuesFrom mode text).map decoded := by
  induction text generalizing mode with
  | nil =>
      cases mode with
      | text reversed => rfl
      | _ => exact absurd List.mem_cons_self hwhole
  | cons c text ih =>
      rw [piecesFrom, List.mem_append, not_or] at hwhole
      rw [piecesFrom, List.flatMap_append, ih hwhole.2, ← List.append_assoc,
        attributes_step mode c hwhole.1, rawValuesFrom, List.map_append, List.append_assoc]

/-- Decoding neither adds a tab or a line break nor takes one away. -/
theorem mem_decode_iff {c : Char} (hblanked : Blanked c) (raw : List Char) :
    c ∈ decode raw ↔ c ∈ raw := by
  have hentity : c ∉ "&amp;&lt;&gt;&quot;<>\"".toList := by
    rcases hblanked with rfl | rfl | rfl <;> decide
  fun_induction decode raw <;> simp_all

/-! ## References -/

/-- The attributes that identify keys and elements. -/
def references : List String := ["id", "source", "target"]

/-- Whether all references of a document stand for themselves. -/
def SteadyReferences (text : List Char) : Prop :=
  ∀ value ∈ rawValuesFrom (.text []) text, value.1 ∈ references → Steady value.2

theorem steady_decode_iff (raw : List Char) :
    Steady (String.ofList (decode raw)).toList ↔ Steady raw := by
  rw [String.toList_ofList]
  constructor
  · intro hsteady c hc hblanked
    exact hsteady c ((mem_decode_iff hblanked raw).mpr hc) hblanked
  · intro hsteady c hc hblanked
    exact hsteady c ((mem_decode_iff hblanked raw).mp hc) hblanked

/-- Whether all references of a piece stand for themselves. -/
def SteadyPiece (piece : Piece) : Prop :=
  ∀ entry ∈ piece.attributes, entry.1 ∈ references → Steady entry.2.toList

/-- The references of a text are those of its tags. -/
theorem steadyReferences_iff {text : List Char} (hwhole : .stray ∉ piecesFrom (.text []) text) :
    SteadyReferences text ↔ ∀ piece ∈ piecesFrom (.text []) text, SteadyPiece piece := by
  have hvalues := flatMap_attributes_piecesFrom text hwhole
  constructor
  · intro hsteady piece hpiece entry hentry hname
    obtain ⟨value, hvalue, rfl⟩ :
        ∃ value ∈ rawValuesFrom (.text []) text, decoded value = entry := by
      have hmem := List.mem_flatMap_of_mem hpiece hentry
      rw [hvalues] at hmem
      exact List.mem_map.mp hmem
    exact (steady_decode_iff value.2).mpr (hsteady value hvalue hname)
  · intro hpieces value hvalue hname
    obtain ⟨piece, hpiece, hentry⟩ : ∃ piece ∈ piecesFrom (.text []) text,
        decoded value ∈ piece.attributes := by
      rw [← List.mem_flatMap, hvalues]
      exact List.mem_map_of_mem hvalue
    exact (steady_decode_iff value.2).mp (hpieces piece hpiece (decoded value) hentry hname)

/-- A tag without references. -/
theorem steadyPiece_tag {tag : Tag} (hnames : ∀ entry ∈ tag.attributes, entry.1 ∉ references) :
    SteadyPiece (.tag tag) :=
  fun entry hentry hname => absurd hname (hnames entry hentry)

theorem steadyPiece_keyPiece (domain : Domain) (key : Key) :
    SteadyPiece (keyPiece domain key) ↔ Steady key.name.toList := by
  have hmark : Steady domain.mark.toList := by cases domain <;> decide
  have hsplit : Steady (domain.mark.toList ++ key.name.toList) ↔ Steady key.name.toList :=
    List.forall_mem_append.trans (and_iff_right hmark)
  simpa [SteadyPiece, keyPiece, Piece.attributes, references] using hsplit

theorem steadyPiece_dataLinesPieces (domain : Domain) (attributes : Attributes) :
    ∀ piece ∈ dataLinesPieces domain attributes, SteadyPiece piece := by
  refine List.forall_mem_flatMap.mpr fun entry _ => ?_
  rw [dataPieces, List.forall_mem_cons, List.forall_mem_singleton]
  exact ⟨steadyPiece_tag (by simp [references]), steadyPiece_tag (by simp)⟩

theorem steady_toDigits (n : Nat) : Steady (Nat.toDigits 10 n) := by
  intro c hc hblanked
  have hdigit := Nat.isDigit_of_mem_toDigits (by omega) (by omega) hc
  rcases hblanked with rfl | rfl | rfl <;> exact absurd hdigit (by decide)

theorem steadyPiece_vertexPieces (vertex : VertexRecord) :
    (∀ piece ∈ vertexPieces vertex, SteadyPiece piece) ↔ Steady vertex.id.toList := by
  have hdata := steadyPiece_dataLinesPieces .node vertex.attributes
  have hclosing : SteadyPiece (.tag ⟨indentation "    ", "/node", [], false⟩) :=
    steadyPiece_tag (by simp)
  have hopening : SteadyPiece (.tag ⟨indentation "    ", "node", [("id", vertex.id)], false⟩) ↔
      Steady vertex.id.toList := by
    simp [SteadyPiece, Piece.attributes, references]
  rw [vertexPieces, List.forall_mem_cons, List.forall_mem_append, List.forall_mem_singleton,
    hopening]
  exact and_iff_left ⟨hdata, hclosing⟩

theorem steadyPiece_edgePieces (edge : EdgeRecord) (number : Nat) :
    (∀ piece ∈ edgePieces edge number, SteadyPiece piece) ↔
      Steady edge.source.toList ∧ Steady edge.target.toList := by
  have hdata := steadyPiece_dataLinesPieces .edge edge.attributes
  have hclosing : SteadyPiece (.tag ⟨indentation "    ", "/edge", [], false⟩) :=
    steadyPiece_tag (by simp)
  have hid : Steady (edgeId number).toList := by
    rw [edgeId, String.toList_ofList]
    exact List.forall_mem_cons.mpr ⟨by decide, steady_toDigits number⟩
  have hopening : SteadyPiece (.tag ⟨indentation "    ", "edge",
        [("id", edgeId number), ("source", edge.source), ("target", edge.target)], false⟩) ↔
      Steady edge.source.toList ∧ Steady edge.target.toList := by
    simp [SteadyPiece, Piece.attributes, references, hid]
  rw [edgePieces, List.forall_mem_cons, List.forall_mem_append, List.forall_mem_singleton, hopening]
  exact and_iff_left ⟨hdata, hclosing⟩

/-- An attribute map whose names have no tabs and no line breaks. -/
def SteadyNames (attributes : Attributes) : Prop :=
  ∀ entry ∈ attributes.toList, Steady entry.1.toList

/-- **Which references of documents stand for themselves**: where the names of attributes
do, those of the vertices and of the ends of edges that do. -/
theorem steadyReferences_document_iff {graph : GraphRecord}
    (hvertices : ∀ vertex ∈ graph.vertices, SteadyNames vertex.attributes)
    (hedges : ∀ edge ∈ graph.edges, SteadyNames edge.attributes) :
    SteadyReferences (document graph) ↔
      (∀ vertex ∈ graph.vertices, Steady vertex.id.toList) ∧
      ∀ edge ∈ graph.edges, Steady edge.source.toList ∧ Steady edge.target.toList := by
  have hkeys : ∀ domain (maps : List Attributes), (∀ attributes ∈ maps, SteadyNames attributes) →
      ∀ piece ∈ (collectKeys maps).map (keyPiece domain), SteadyPiece piece := by
    intro domain maps hmaps
    refine List.forall_mem_map.mpr fun key hkey => (steadyPiece_keyPiece domain key).mpr ?_
    obtain ⟨value, hentry⟩ := mem_namesIn.mp (mem_collectKeys.mp hkey).1
    obtain ⟨attributes, hattributes, hmem⟩ := List.mem_flatMap.mp hentry
    exact hmaps attributes hattributes _ hmem
  have hvertexKeys := hkeys .node _ (List.forall_mem_map.mpr hvertices)
  have hedgeKeys := hkeys .edge _ (List.forall_mem_map.mpr hedges)
  have hheader : ∀ piece ∈ headerPieces, SteadyPiece piece := by
    rw [headerPieces, List.forall_mem_cons, List.forall_mem_singleton]
    exact ⟨steadyPiece_tag (by decide), steadyPiece_tag (by decide)⟩
  have hgraph : SteadyPiece graphPiece := by
    have hid : Steady ['G'] := by decide
    simpa [graphPiece, SteadyPiece, Piece.attributes, references] using hid
  have hfooter : ∀ piece ∈ footerPieces, SteadyPiece piece := by
    rw [footerPieces, List.forall_mem_cons, List.forall_mem_singleton]
    exact ⟨steadyPiece_tag (by simp), steadyPiece_tag (by simp)⟩
  have hvertexPieces : (∀ piece ∈ graph.vertices.flatMap vertexPieces, SteadyPiece piece) ↔
      ∀ vertex ∈ graph.vertices, Steady vertex.id.toList :=
    List.forall_mem_flatMap.trans <| forall₂_congr fun vertex _ => steadyPiece_vertexPieces vertex
  have hedgePieces : (∀ piece ∈ graph.edges.zipIdx.flatMap
        (fun edge => edgePieces edge.1 edge.2), SteadyPiece piece) ↔
      ∀ edge ∈ graph.edges, Steady edge.source.toList ∧ Steady edge.target.toList := by
    conv_rhs => rw [← List.zipIdx_map_fst 0 graph.edges, List.forall_mem_map]
    exact List.forall_mem_flatMap.trans <|
      forall₂_congr fun edge _ => steadyPiece_edgePieces edge.1 edge.2
  have hpieces := piecesFrom_document graph
  rw [steadyReferences_iff (hpieces ▸ stray_notMem_documentPieces graph), hpieces, documentPieces,
    List.forall_mem_append, List.forall_mem_append, List.forall_mem_append, List.forall_mem_cons,
    List.forall_mem_append, List.forall_mem_append, hvertexPieces]
  constructor
  · rintro ⟨-, -, -, -, hvertex, hedge, -⟩
    exact ⟨hvertex, hedgePieces.mp hedge⟩
  · rintro ⟨hvertex, hedge⟩
    exact ⟨hheader, hvertexKeys, hedgeKeys, hgraph, hvertex, hedgePieces.mpr hedge, hfooter⟩

end Render.GraphMl

end ProgramGraphs
