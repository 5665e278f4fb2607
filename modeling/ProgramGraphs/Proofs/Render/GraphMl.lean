import ProgramGraphs.Proofs.Render.Facts
import ProgramGraphs.Proofs.Render.Reading
import ProgramGraphs.Render.GraphMl

/-!
# What a GraphML document says

A GraphML document is cut at its tags: each tag comes with the text before it, its name
and its attributes, with their entities decoded.  The tags are read as declarations of
keys and as vertices and edges with their data.  No content can end a quoted text or
open a tag, since the characters that would are written as entities.

The document of a graph is read as its declarations, its vertices and its numbered
edges (`items?_graphMl`), so it says what it is to say (`ofGraphMl?_graphMl`).
-/

namespace ProgramGraphs.Render.GraphMl

/-! ## Tags -/

/-- Replaces entities by the characters that they stand for. -/
def decode : List Char → List Char
  | '&' :: 'a' :: 'm' :: 'p' :: ';' :: rest => '&' :: decode rest
  | '&' :: 'l' :: 't' :: ';' :: rest => '<' :: decode rest
  | '&' :: 'g' :: 't' :: ';' :: rest => '>' :: decode rest
  | '&' :: 'q' :: 'u' :: 'o' :: 't' :: ';' :: rest => '"' :: decode rest
  | c :: rest => c :: decode rest
  | [] => []

/-- The text of characters that were collected with the last one first. -/
def collected (reversed : List Char) : String := String.ofList (decode reversed.reverse)

/-- A tag.  The name of a closing tag starts with a slash. -/
structure Tag where
  /-- The text since the tag before. -/
  before : String
  name : String
  attributes : List (String × String) := []
  /-- The element ends with this tag. -/
  empty : Bool := false
  deriving DecidableEq, Repr

/-- A piece of a GraphML document. -/
inductive Piece where
  | tag (tag : Tag)
  /-- A place where the document is broken. -/
  | stray
  deriving DecidableEq, Repr

/-- What a reader of characters is in the middle of; the characters so far are kept
with the last one first. -/
inductive Mode where
  | text (reversed : List Char)
  | tagName (before : String) (reversed : List Char)
  /-- Between the attributes of a tag. -/
  | inside (tag : Tag)
  | attributeName (tag : Tag) (reversed : List Char)
  /-- Before the opening quote of a value. -/
  | equals (tag : Tag) (name : String)
  | value (tag : Tag) (name : String) (reversed : List Char)
  deriving DecidableEq, Repr

/-- What one more character completes, and what it leaves open. -/
def Mode.step : Mode → Char → List Piece × Mode
  | .text reversed, c =>
    if c = '<' then ([], .tagName (collected reversed) []) else ([], .text (c :: reversed))
  | .tagName before reversed, c =>
    if c = '>' then ([.tag { before, name := String.ofList reversed.reverse }], .text [])
    else if c = ' ' then ([], .inside { before, name := String.ofList reversed.reverse })
    else ([], .tagName before (c :: reversed))
  | .inside tag, c =>
    if c = '>' then ([.tag tag], .text [])
    else if c = '/' then ([], .inside { tag with empty := true })
    else if c = ' ' ∨ c = '?' then ([], .inside tag)
    else ([], .attributeName tag [c])
  | .attributeName tag reversed, c =>
    if c = '=' then ([], .equals tag (String.ofList reversed.reverse))
    else ([], .attributeName tag (c :: reversed))
  | .equals tag name, c =>
    if c = '"' then ([], .value tag name []) else ([.stray], .text [])
  | .value tag name reversed, c =>
    if c = '"' then
      ([], .inside { tag with attributes := tag.attributes ++ [(name, collected reversed)] })
    else if c = '<' then ([.stray], .text [])
    else ([], .value tag name (c :: reversed))

/-- The pieces of a row of characters, which may not end inside a tag. -/
def piecesFrom (mode : Mode) : List Char → List Piece
  | [] => match mode with
    | .text _ => []
    | _ => [.stray]
  | c :: rest => (mode.step c).1 ++ piecesFrom (mode.step c).2 rest

/-! ## Items -/

/-- What an element is. -/
inductive Owner where
  | vertex (id : String)
  | edge (id source target : String)
  deriving DecidableEq, Repr

/-- The closing tag of an element. -/
def Owner.closing : Owner → String
  | .vertex _ => "/node"
  | .edge .. => "/edge"

/-- What a document lists. -/
inductive Item where
  /-- A declaration, with the id of the key, the elements it is for, and the name and
  the type of the attribute. -/
  | key (id domain name type : String)
  /-- A vertex or an edge, with the key and the text of each of its data. -/
  | element (owner : Owner) (data : List (String × String))
  deriving DecidableEq, Repr

/-- Where in a document a reader of tags stands. -/
inductive Place where
  | start
  | afterInstruction
  | declarations
  | graph
  | element (owner : Owner) (data : List (String × String))
  | datum (owner : Owner) (data : List (String × String)) (key : String)
  | afterGraph
  | ended
  deriving DecidableEq, Repr

/-- The declaration that a tag makes. -/
def declared? (tag : Tag) : Option Item :=
  match tag.name, tag.attributes with
  | "key", [("id", id), ("for", domain), ("attr.name", name), ("attr.type", type)] =>
    if tag.empty then some (.key id domain name type) else none
  | _, _ => none

/-- The element that a tag opens. -/
def opened? (tag : Tag) : Option Owner :=
  match tag.name, tag.attributes with
  | "node", [("id", id)] => some (.vertex id)
  | "edge", [("id", id), ("source", source), ("target", target)] => some (.edge id source target)
  | _, _ => none

/-- The key of the datum that a tag opens. -/
def datumKey? (tag : Tag) : Option String :=
  match tag.name, tag.attributes with
  | "data", [("key", key)] => some key
  | _, _ => none

/-- The item that one more tag completes, if it does, and where it leads; nothing where
the tag may not stand. -/
def Place.step : Place → Piece → Option (List Item × Place)
  | _, .stray => none
  | .start, .tag tag => if tag.name = "?xml" then some ([], .afterInstruction) else none
  | .afterInstruction, .tag tag => if tag.name = "graphml" then some ([], .declarations) else none
  | .declarations, .tag tag =>
    if tag.name = "graph" then some ([], .graph)
    else (declared? tag).map fun item => ([item], .declarations)
  | .graph, .tag tag =>
    if tag.name = "/graph" then some ([], .afterGraph)
    else (opened? tag).map fun owner => ([], .element owner [])
  | .element owner data, .tag tag =>
    if tag.name = owner.closing then some ([.element owner data], .graph)
    else (datumKey? tag).map fun key => ([], .datum owner data key)
  | .datum owner data key, .tag tag =>
    if tag.name = "/data" then some ([], .element owner (data ++ [(key, tag.before)])) else none
  | .afterGraph, .tag tag => if tag.name = "/graphml" then some ([], .ended) else none
  | .ended, .tag _ => none

/-- The items of a GraphML document. -/
def items? (text : String) : Option (List Item) :=
  readFrom Place.step .ended .start (piecesFrom (.text []) text.toList)

/-- The name of an attribute from the id of its key. -/
def attributeName? (mark : Char) (key : String) : Option String :=
  match key.toList with
  | c :: '_' :: name => if c = mark then some (String.ofList name) else none
  | _ => none

/-- Data under the names of their attributes. -/
def named? (mark : Char) (data : List (String × String)) : Option (List (String × String)) :=
  data.mapM fun datum => (attributeName? mark datum.1).map (·, datum.2)

namespace Item

/-- A vertex and its data. -/
def vertex? : Item → Option (String × List (String × String))
  | .element (.vertex id) data => some (id, data)
  | _ => none

/-- An edge and its data. -/
def edge? : Item → Option (String × String × List (String × String))
  | .element (.edge _ source target) data => some (source, target, data)
  | _ => none

end Item

end Render.GraphMl

/-- What a GraphML document of a graph says. -/
def Facts.ofGraphMl? (text : String) : Option Facts := do
  let items ← Render.GraphMl.items? text
  let vertices ← (items.filterMap (·.vertex?)).mapM fun (id, data) =>
    (Render.GraphMl.named? 'v' data).map (id, ·)
  let edges ← (items.filterMap (·.edge?)).mapM fun (source, target, data) =>
    (Render.GraphMl.named? 'e' data).map (source, target, ·)
  return { vertices, edges }

namespace Render.GraphMl

/-! ## Entities -/

theorem decode_cons {c : Char} (hc : c ≠ '&') (rest : List Char) :
    decode (c :: rest) = c :: decode rest := by
  rw [decode] <;> simp_all

theorem decode_escapeText (c : Char) (rest : List Char) :
    decode (escapeText c ++ rest) = c :: decode rest := by
  unfold escapeText
  split_ifs with hamp hless hgreater
  · subst hamp
    rfl
  · subst hless
    rfl
  · subst hgreater
    rfl
  · exact decode_cons hamp rest

theorem decode_escapeQuoted (c : Char) (rest : List Char) :
    decode (escapeQuoted c ++ rest) = c :: decode rest := by
  unfold escapeQuoted
  split_ifs with hquote
  · subst hquote
    rfl
  · exact decode_escapeText c rest

/-- **An escaped text gives back its characters.** -/
theorem decode_flatMap {escape : Char → List Char}
    (hescape : ∀ c rest, decode (escape c ++ rest) = c :: decode rest) (text : List Char) :
    decode (text.flatMap escape) = text := by
  induction text with
  | nil => rfl
  | cons c text ih => rw [List.flatMap_cons, hescape, ih]

theorem mem_escapeText {c d : Char} (hmem : d ∈ escapeText c) : d ≠ '<' := by
  unfold escapeText at hmem
  split_ifs at hmem with hamp hless hgreater
  · rintro rfl
    contradiction
  · rintro rfl
    contradiction
  · rintro rfl
    contradiction
  · rw [List.mem_singleton] at hmem
    exact hmem ▸ hless

/-- What is escaped for a quoted text can neither end it nor open a tag. -/
theorem mem_escapeQuoted {c d : Char} (hmem : d ∈ escapeQuoted c) : d ≠ '"' ∧ d ≠ '<' := by
  unfold escapeQuoted at hmem
  split_ifs at hmem with hquote
  · constructor <;> rintro rfl <;> contradiction
  · refine ⟨?_, mem_escapeText hmem⟩
    rintro rfl
    unfold escapeText at hmem
    split_ifs at hmem
    · contradiction
    · contradiction
    · contradiction
    · exact hquote (List.mem_singleton.mp hmem).symm

/-! ## Pieces -/

/-- Characters are collected as long as they complete nothing. -/
theorem piecesFrom_collect {mode : List Char → Mode} {raw : List Char}
    (hcollect : ∀ c ∈ raw, ∀ reversed, (mode reversed).step c = ([], mode (c :: reversed)))
    (reversed rest : List Char) :
    piecesFrom (mode reversed) (raw ++ rest) =
      piecesFrom (mode (raw.reverse ++ reversed)) rest := by
  induction raw generalizing reversed with
  | nil => rfl
  | cons c raw ih =>
      have hstep : piecesFrom (mode reversed) (c :: (raw ++ rest)) =
          piecesFrom (mode (c :: reversed)) (raw ++ rest) := by
        rw [piecesFrom, hcollect c (List.mem_cons_self ..)]
        rfl
      rw [List.cons_append, hstep, ih fun d hd => hcollect d (List.mem_cons_of_mem _ hd),
        List.reverse_cons, List.append_assoc]
      rfl

theorem piecesFrom_open (reversed rest : List Char) :
    piecesFrom (.text reversed) ('<' :: rest) =
      piecesFrom (.tagName (collected reversed) []) rest := rfl

/-- A tag with one more attribute. -/
def Tag.with (tag : Tag) (name value : String) : Tag :=
  { tag with attributes := tag.attributes ++ [(name, value)] }

/-- **A quoted text is one attribute value**, whatever it holds. -/
theorem piecesFrom_quoted (tag : Tag) (name text : String) (rest : List Char) :
    piecesFrom (.equals tag name) (quoted (inner text) ++ rest) =
      piecesFrom (.inside (tag.with name text)) rest := by
  -- the quote that ends the value is the first quote after the one that opens it
  have hcollect : ∀ c ∈ inner text, ∀ reversed,
      (Mode.value tag name reversed).step c = ([], .value tag name (c :: reversed)) := by
    intro c hc reversed
    obtain ⟨d, -, hd⟩ := List.mem_flatMap.mp hc
    have hplain := mem_escapeQuoted hd
    rw [Mode.step, if_neg hplain.1, if_neg hplain.2]
  have hvalue : collected ((inner text).reverse ++ []) = text := by
    rw [collected, List.append_nil, List.reverse_reverse, inner, decode_flatMap decode_escapeQuoted,
      String.ofList_toList]
  have hopen : quoted (inner text) ++ rest = '"' :: (inner text ++ '"' :: rest) := by
    simp [quoted]
  have hstart : piecesFrom (.equals tag name) ('"' :: (inner text ++ '"' :: rest)) =
      piecesFrom (.value tag name []) (inner text ++ '"' :: rest) := rfl
  have hend : ∀ reversed, piecesFrom (.value tag name reversed) ('"' :: rest) =
      piecesFrom (.inside (tag.with name (collected reversed))) rest := fun _ => rfl
  rw [hopen, hstart, piecesFrom_collect hcollect, hend, hvalue]

/-- The name holds neither of the characters at which the name of a tag ends. -/
def IsTagName (name : String) : Prop := ∀ c ∈ name.toList, c ≠ '>' ∧ c ≠ ' '

instance (name : String) : Decidable (IsTagName name) :=
  List.decidableBAll _ name.toList

theorem piecesFrom_tagName {before name : String} (hname : IsTagName name) (rest : List Char) :
    piecesFrom (.tagName before []) (name.toList ++ rest) =
      piecesFrom (.tagName before (name.toList.reverse ++ [])) rest := by
  refine piecesFrom_collect (fun c hc reversed => ?_) [] rest
  have hplain := hname c hc
  rw [Mode.step, if_neg hplain.1, if_neg hplain.2]

theorem piecesFrom_opening {before name : String} (hname : IsTagName name) (rest : List Char) :
    piecesFrom (.tagName before []) (name.toList ++ ' ' :: rest) =
      piecesFrom (.inside { before, name }) (' ' :: rest) := by
  have hend : ∀ reversed, piecesFrom (.tagName before reversed) (' ' :: rest) =
      piecesFrom (.inside { before, name := String.ofList reversed.reverse }) (' ' :: rest) :=
    fun _ => rfl
  rw [piecesFrom_tagName hname, hend, List.append_nil, List.reverse_reverse, String.ofList_toList]

theorem piecesFrom_bare {before name : String} (hname : IsTagName name) (rest : List Char) :
    piecesFrom (.tagName before []) (name.toList ++ '>' :: rest) =
      .tag { before, name } :: piecesFrom (.text []) rest := by
  have hend : ∀ reversed, piecesFrom (.tagName before reversed) ('>' :: rest) =
      .tag { before, name := String.ofList reversed.reverse } :: piecesFrom (.text []) rest :=
    fun _ => rfl
  rw [piecesFrom_tagName hname, hend, List.append_nil, List.reverse_reverse, String.ofList_toList]

/-- The name is there, and holds none of the characters at which a tag goes on without it. -/
def IsAttributeName (name : String) : Prop :=
  name.toList ≠ [] ∧ ∀ c ∈ name.toList, c ≠ '>' ∧ c ≠ '/' ∧ ¬ (c = ' ' ∨ c = '?') ∧ c ≠ '='

instance (name : String) : Decidable (IsAttributeName name) :=
  @instDecidableAnd _ _ _ (List.decidableBAll _ name.toList)

/-- **An attribute is added to its tag**, whatever its value holds. -/
theorem piecesFrom_attribute (tag : Tag) {name : String} (hname : IsAttributeName name)
    (text : String) (rest : List Char) :
    piecesFrom (.inside tag) (' ' :: (name.toList ++ '=' :: (quoted (inner text) ++ rest))) =
      piecesFrom (.inside (tag.with name text)) rest := by
  obtain ⟨c, raw, hcons⟩ := List.exists_cons_of_ne_nil hname.1
  have hplain : ∀ d ∈ c :: raw, d ≠ '>' ∧ d ≠ '/' ∧ ¬ (d = ' ' ∨ d = '?') ∧ d ≠ '=' :=
    hcons ▸ hname.2
  have hfirst : (Mode.inside tag).step c = ([], .attributeName tag [c]) := by
    have hc := hplain c (List.mem_cons_self ..)
    rw [Mode.step, if_neg hc.1, if_neg hc.2.1, if_neg hc.2.2.1]
  have hcollect : ∀ d ∈ raw, ∀ reversed,
      (Mode.attributeName tag reversed).step d = ([], .attributeName tag (d :: reversed)) :=
    fun d hd _ => if_neg (hplain d (List.mem_cons_of_mem _ hd)).2.2.2
  have hend : ∀ reversed following, piecesFrom (.attributeName tag reversed) ('=' :: following) =
      piecesFrom (.equals tag (String.ofList reversed.reverse)) following := fun _ _ => rfl
  have hblank : ∀ following, piecesFrom (.inside tag) (' ' :: following) =
      piecesFrom (.inside tag) following := fun _ => rfl
  have htext : (raw.reverse ++ [c]).reverse = name.toList := by
    rw [List.reverse_append, List.reverse_reverse, hcons]
    rfl
  rw [hblank, hcons, List.cons_append, piecesFrom, hfirst]
  simp only [List.nil_append]
  rw [piecesFrom_collect hcollect, hend, htext, String.ofList_toList, piecesFrom_quoted]

/-- **A text between tags is what stands before the next tag**, whatever it holds. -/
theorem piecesFrom_content (content : String) (rest : List Char) :
    piecesFrom (.text []) (text content ++ '<' :: rest) =
      piecesFrom (.tagName content []) rest := by
  have hcollect : ∀ c ∈ text content, ∀ reversed,
      (Mode.text reversed).step c = ([], .text (c :: reversed)) := by
    intro c hc reversed
    obtain ⟨d, -, hd⟩ := List.mem_flatMap.mp hc
    exact if_neg (mem_escapeText hd)
  have hvalue : collected ((text content).reverse ++ []) = content := by
    rw [collected, List.append_nil, List.reverse_reverse, text, decode_flatMap decode_escapeText,
      String.ofList_toList]
  rw [piecesFrom_collect hcollect, piecesFrom_open, hvalue]

/-- What stands before the first tag of an indented line. -/
def indentation (blanks : String) : String := collected (blanks.toList.reverse ++ ['\n'])

theorem piecesFrom_indentation {blanks : String} (hblanks : '<' ∉ blanks.toList)
    (rest : List Char) :
    piecesFrom (.text ['\n']) (blanks.toList ++ '<' :: rest) =
      piecesFrom (.tagName (indentation blanks) []) rest := by
  have hcollect : ∀ c ∈ blanks.toList, ∀ reversed,
      (Mode.text reversed).step c = ([], .text (c :: reversed)) :=
    fun c hc _ => if_neg (ne_of_mem_of_not_mem hc hblanks)
  rw [piecesFrom_collect hcollect, piecesFrom_open]
  rfl

theorem piecesFrom_close (tag : Tag) (rest : List Char) :
    piecesFrom (.inside tag) ('>' :: rest) = .tag tag :: piecesFrom (.text []) rest := rfl

theorem piecesFrom_lineBreak (rest : List Char) :
    piecesFrom (.text []) ('\n' :: rest) = piecesFrom (.text ['\n']) rest := rfl

/-! ## The pieces of lines -/

theorem keyId_eq (domain : Domain) (name : String) :
    keyId domain name = quoted (inner (domain.mark ++ name)) := by
  have hmark : domain.mark.toList.flatMap escapeQuoted = domain.mark.toList := by
    cases domain <;> decide
  rw [keyId, inner, inner, String.toList_append, List.flatMap_append, hmark]

/-- The tags of a datum.  Its value is the text before the closing one. -/
def dataPieces (domain : Domain) (entry : String × String) : List Piece :=
  [.tag ⟨indentation "      ", "data", [("key", domain.mark ++ entry.1)], false⟩,
    .tag ⟨entry.2, "/data", [], false⟩]

theorem piecesFrom_dataLine (domain : Domain) (entry : String × String) (rest : List Char) :
    piecesFrom (.text ['\n']) (dataLine domain entry ++ rest) =
      dataPieces domain entry ++ piecesFrom (.text ['\n']) rest := by
  have hopening : "      <data key=".toList = "      ".toList ++ '<' :: ("data".toList ++
      ' ' :: ("key".toList ++ ['='])) := rfl
  have hclosing : "</data>\n".toList = '<' :: ("/data".toList ++ ['>', '\n']) := rfl
  have hend : ">".toList = ['>'] := rfl
  unfold dataLine
  rw [hopening, hclosing, hend, keyId_eq]
  simp only [List.append_assoc, List.cons_append, List.nil_append]
  rw [piecesFrom_indentation (by decide), piecesFrom_opening (by decide),
    piecesFrom_attribute _ (by decide), piecesFrom_close, piecesFrom_content,
    piecesFrom_bare (by decide), piecesFrom_lineBreak]
  rfl

/-- The tags of the data of an element. -/
def dataLinesPieces (domain : Domain) (attributes : Attributes) : List Piece :=
  attributes.shown.flatMap (dataPieces domain)

theorem piecesFrom_dataLines (domain : Domain) (attributes : Attributes) (rest : List Char) :
    piecesFrom (.text ['\n']) (dataLines domain attributes ++ rest) =
      dataLinesPieces domain attributes ++ piecesFrom (.text ['\n']) rest :=
  scan_flatMap (piecesFrom_dataLine domain) attributes.shown rest

/-- The data of an element and the tag that closes it. -/
theorem piecesFrom_body (tag : Tag) (domain : Domain) (attributes : Attributes) {closing : String}
    (hclosing : IsTagName closing) (rest : List Char) :
    piecesFrom (.inside tag) ('>' :: '\n' :: (dataLines domain attributes ++
        ("    ".toList ++ '<' :: (closing.toList ++ '>' :: '\n' :: rest)))) =
      .tag tag :: (dataLinesPieces domain attributes ++
        .tag ⟨indentation "    ", closing, [], false⟩ :: piecesFrom (.text ['\n']) rest) := by
  rw [piecesFrom_close, piecesFrom_lineBreak, piecesFrom_dataLines,
    piecesFrom_indentation (by decide), piecesFrom_bare hclosing, piecesFrom_lineBreak]

/-- The tags of a vertex, with those of its data between them. -/
def vertexPieces (vertex : VertexRecord) : List Piece :=
  .tag ⟨indentation "    ", "node", [("id", vertex.id)], false⟩ ::
    (dataLinesPieces .node vertex.attributes ++ [.tag ⟨indentation "    ", "/node", [], false⟩])

theorem piecesFrom_vertexLines (vertex : VertexRecord) (rest : List Char) :
    piecesFrom (.text ['\n']) (vertexLines vertex ++ rest) =
      vertexPieces vertex ++ piecesFrom (.text ['\n']) rest := by
  have hopening : "    <node id=".toList = "    ".toList ++ '<' :: ("node".toList ++
      ' ' :: ("id".toList ++ ['='])) := rfl
  have hclosing : "    </node>\n".toList =
      "    ".toList ++ '<' :: ("/node".toList ++ ['>', '\n']) := rfl
  have hend : ">\n".toList = ['>', '\n'] := rfl
  unfold vertexLines
  rw [hopening, hclosing, hend]
  simp only [List.append_assoc, List.cons_append, List.nil_append]
  rw [piecesFrom_indentation (by decide), piecesFrom_opening (by decide),
    piecesFrom_attribute _ (by decide), piecesFrom_body _ _ _ (by decide)]
  simp [vertexPieces, Tag.with]

/-- The id that an edge gets for its number. -/
def edgeId (number : Nat) : String := String.ofList ('e' :: Nat.toDigits 10 number)

theorem inner_edgeId (number : Nat) : inner (edgeId number) = 'e' :: Nat.toDigits 10 number := by
  -- letters and digits have no entities
  have hplain : ∀ c ∈ 'e' :: Nat.toDigits 10 number, escapeQuoted c = [c] := by
    intro c hc
    have hname : c.isAlphanum = true := by
      rcases List.mem_cons.mp hc with rfl | hc
      · rfl
      · have hdigit := Nat.isDigit_of_mem_toDigits (by omega) (by omega) hc
        simp [Char.isAlphanum, hdigit]
    have hquote : c ≠ '"' := by rintro rfl; contradiction
    have hamp : c ≠ '&' := by rintro rfl; contradiction
    have hless : c ≠ '<' := by rintro rfl; contradiction
    have hgreater : c ≠ '>' := by rintro rfl; contradiction
    rw [escapeQuoted, if_neg hquote, escapeText, if_neg hamp, if_neg hless, if_neg hgreater]
  rw [inner, edgeId, String.toList_ofList, List.flatMap_congr hplain]
  exact List.flatMap_singleton' _

/-- The tags of an edge, with those of its data between them. -/
def edgePieces (edge : EdgeRecord) (number : Nat) : List Piece :=
  .tag ⟨indentation "    ", "edge",
      [("id", edgeId number), ("source", edge.source), ("target", edge.target)], false⟩ ::
    (dataLinesPieces .edge edge.attributes ++ [.tag ⟨indentation "    ", "/edge", [], false⟩])

theorem piecesFrom_edgeLines (edge : EdgeRecord) (number : Nat) (rest : List Char) :
    piecesFrom (.text ['\n']) (edgeLines edge number ++ rest) =
      edgePieces edge number ++ piecesFrom (.text ['\n']) rest := by
  have hopening : "    <edge id=".toList = "    ".toList ++ '<' :: ("edge".toList ++
      ' ' :: ("id".toList ++ ['='])) := rfl
  have hsource : " source=".toList = ' ' :: ("source".toList ++ ['=']) := rfl
  have htarget : " target=".toList = ' ' :: ("target".toList ++ ['=']) := rfl
  have hclosing : "    </edge>\n".toList =
      "    ".toList ++ '<' :: ("/edge".toList ++ ['>', '\n']) := rfl
  have hend : ">\n".toList = ['>', '\n'] := rfl
  unfold edgeLines
  rw [hopening, hsource, htarget, hclosing, hend, ← inner_edgeId]
  simp only [List.append_assoc, List.cons_append, List.nil_append]
  rw [piecesFrom_indentation (by decide), piecesFrom_opening (by decide),
    piecesFrom_attribute _ (by decide), piecesFrom_attribute _ (by decide),
    piecesFrom_attribute _ (by decide), piecesFrom_body _ _ _ (by decide)]
  simp [edgePieces, Tag.with]

/-- The tag that declares a key. -/
def keyPiece (domain : Domain) (key : Key) : Piece :=
  .tag ⟨indentation "  ", "key", [("id", domain.mark ++ key.name), ("for", domain.element),
    ("attr.name", key.name), ("attr.type", key.type.name)], true⟩

theorem piecesFrom_declaration (domain : Domain) (key : Key) (rest : List Char) :
    piecesFrom (.text ['\n']) (declaration domain key ++ rest) =
      keyPiece domain key :: piecesFrom (.text ['\n']) rest := by
  have helement : domain.element.toList = inner domain.element := by cases domain <;> decide
  have htype : key.type.name.toList = inner key.type.name := by
    cases key.type <;> decide
  have hopening : "  <key id=".toList = "  ".toList ++ '<' :: ("key".toList ++
      ' ' :: ("id".toList ++ ['='])) := rfl
  have hfor : " for=".toList = ' ' :: ("for".toList ++ ['=']) := rfl
  have hname : " attr.name=".toList = ' ' :: ("attr.name".toList ++ ['=']) := rfl
  have htypeName : " attr.type=".toList = ' ' :: ("attr.type".toList ++ ['=']) := rfl
  have hend : "/>\n".toList = ['/', '>', '\n'] := rfl
  have hslash : ∀ tag following, piecesFrom (.inside tag) ('/' :: following) =
      piecesFrom (.inside { tag with empty := true }) following := fun _ _ => rfl
  unfold declaration
  rw [hopening, hfor, hname, htypeName, hend, keyId_eq, helement, htype]
  simp only [List.append_assoc, List.cons_append, List.nil_append]
  rw [piecesFrom_indentation (by decide), piecesFrom_opening (by decide),
    piecesFrom_attribute _ (by decide), piecesFrom_attribute _ (by decide),
    piecesFrom_attribute _ (by decide), piecesFrom_attribute _ (by decide), hslash,
    piecesFrom_close, piecesFrom_lineBreak]
  rfl

/-- The tags before the first declaration. -/
def headerPieces : List Piece :=
  [.tag ⟨collected [], "?xml", [("version", "1.0"), ("encoding", "UTF-8")], false⟩,
    .tag ⟨collected ['\n'], "graphml",
      [("xmlns", "http://graphml.graphdrawing.org/xmlns"),
        ("xmlns:xsi", "http://www.w3.org/2001/XMLSchema-instance"),
        ("xsi:schemaLocation", "http://graphml.graphdrawing.org/xmlns " ++
          "http://graphml.graphdrawing.org/xmlns/1.0/graphml.xsd")], false⟩]

theorem piecesFrom_header (rest : List Char) :
    piecesFrom (.text []) (header.toList ++ rest) =
      headerPieces ++ piecesFrom (.text ['\n']) rest := by
  -- nothing is escaped in the header, so its values are written as they are
  have hplain : ∀ text ∈ ["1.0", "UTF-8", "http://graphml.graphdrawing.org/xmlns",
      "http://www.w3.org/2001/XMLSchema-instance", "http://graphml.graphdrawing.org/xmlns ",
      "http://graphml.graphdrawing.org/xmlns/1.0/graphml.xsd"], inner text = text.toList := by
    simp [inner, escapeQuoted, escapeText]
  have hinstruction : "<?xml version=\"1.0\" encoding=\"UTF-8\"?>\n".toList =
      '<' :: ("?xml".toList ++ ' ' :: ("version".toList ++ '=' :: (quoted "1.0".toList ++
        ' ' :: ("encoding".toList ++ '=' :: (quoted "UTF-8".toList ++ ['?', '>', '\n']))))) :=
    String.toList_ofList
  have hroot : "<graphml xmlns=\"http://graphml.graphdrawing.org/xmlns\" ".toList =
      '<' :: ("graphml".toList ++ ' ' :: ("xmlns".toList ++ '=' ::
        (quoted "http://graphml.graphdrawing.org/xmlns".toList ++ [' ']))) :=
    String.toList_ofList
  have hschema : "xmlns:xsi=\"http://www.w3.org/2001/XMLSchema-instance\" ".toList =
      "xmlns:xsi".toList ++ '=' :: (quoted "http://www.w3.org/2001/XMLSchema-instance".toList ++
        [' ']) :=
    String.toList_ofList
  have hlocation : "xsi:schemaLocation=\"http://graphml.graphdrawing.org/xmlns ".toList =
      "xsi:schemaLocation".toList ++
        '=' :: '"' :: "http://graphml.graphdrawing.org/xmlns ".toList :=
    String.toList_ofList
  have hend : "http://graphml.graphdrawing.org/xmlns/1.0/graphml.xsd\">\n".toList =
      "http://graphml.graphdrawing.org/xmlns/1.0/graphml.xsd".toList ++ ['"', '>', '\n'] :=
    String.toList_ofList
  have hvalue : quoted (inner ("http://graphml.graphdrawing.org/xmlns " ++
      "http://graphml.graphdrawing.org/xmlns/1.0/graphml.xsd")) =
        '"' :: ("http://graphml.graphdrawing.org/xmlns ".toList ++
          ("http://graphml.graphdrawing.org/xmlns/1.0/graphml.xsd".toList ++ ['"'])) := by
    rw [quoted, inner, String.toList_append, List.flatMap_append]
    have hfirst := hplain "http://graphml.graphdrawing.org/xmlns " (by simp)
    have hsecond := hplain "http://graphml.graphdrawing.org/xmlns/1.0/graphml.xsd" (by simp)
    unfold inner at hfirst hsecond
    rw [hfirst, hsecond, List.cons_append, List.append_assoc]
  have hheader : header.toList ++ rest = '<' :: ("?xml".toList ++
      ' ' :: ("version".toList ++ '=' :: (quoted (inner "1.0") ++
      ' ' :: ("encoding".toList ++ '=' :: (quoted (inner "UTF-8") ++
      '?' :: '>' :: '\n' :: '<' :: ("graphml".toList ++
      ' ' :: ("xmlns".toList ++ '=' :: (quoted (inner "http://graphml.graphdrawing.org/xmlns") ++
      ' ' :: ("xmlns:xsi".toList ++ '=' ::
        (quoted (inner "http://www.w3.org/2001/XMLSchema-instance") ++
      ' ' :: ("xsi:schemaLocation".toList ++ '=' ::
        (quoted (inner ("http://graphml.graphdrawing.org/xmlns " ++
          "http://graphml.graphdrawing.org/xmlns/1.0/graphml.xsd")) ++
      '>' :: '\n' :: rest)))))))))))) := by
    rw [hvalue, hplain "1.0" (by simp), hplain "UTF-8" (by simp),
      hplain "http://graphml.graphdrawing.org/xmlns" (by simp),
      hplain "http://www.w3.org/2001/XMLSchema-instance" (by simp)]
    unfold header
    rw [String.toList_append, String.toList_append, String.toList_append, String.toList_append,
      hinstruction, hroot, hschema, hlocation, hend]
    simp only [List.append_assoc, List.cons_append, List.nil_append]
  have hquestion : ∀ tag following, piecesFrom (.inside tag) ('?' :: following) =
      piecesFrom (.inside tag) following := fun _ _ => rfl
  rw [hheader, piecesFrom_open, piecesFrom_opening (by decide),
    piecesFrom_attribute _ (by decide), piecesFrom_attribute _ (by decide), hquestion,
    piecesFrom_close, piecesFrom_lineBreak, piecesFrom_open, piecesFrom_opening (by decide),
    piecesFrom_attribute _ (by decide), piecesFrom_attribute _ (by decide),
    piecesFrom_attribute _ (by decide), piecesFrom_close, piecesFrom_lineBreak]
  rfl

/-- The tag that opens the graph. -/
def graphPiece : Piece :=
  .tag ⟨indentation "  ", "graph", [("id", "G"), ("edgedefault", "directed")], false⟩

theorem piecesFrom_graph (rest : List Char) :
    piecesFrom (.text ['\n'])
        ("  <graph id=\"G\" edgedefault=\"directed\">\n".toList ++ rest) =
      graphPiece :: piecesFrom (.text ['\n']) rest := by
  have hopening : "  <graph id=\"G\" edgedefault=\"directed\">\n".toList =
      "  ".toList ++ '<' :: ("graph".toList ++ ' ' :: ("id".toList ++ '=' :: (quoted (inner "G") ++
        ' ' :: ("edgedefault".toList ++ '=' :: (quoted (inner "directed") ++ ['>', '\n']))))) := by
    decide
  rw [hopening]
  simp only [List.append_assoc, List.cons_append, List.nil_append]
  rw [piecesFrom_indentation (by decide), piecesFrom_opening (by decide),
    piecesFrom_attribute _ (by decide), piecesFrom_attribute _ (by decide), piecesFrom_close,
    piecesFrom_lineBreak]
  rfl

/-- The tags after the last edge. -/
def footerPieces : List Piece :=
  [.tag ⟨indentation "  ", "/graph", [], false⟩, .tag ⟨collected ['\n'], "/graphml", [], false⟩]

theorem piecesFrom_footer :
    piecesFrom (.text ['\n']) "  </graph>\n</graphml>\n".toList = footerPieces := by
  have hfooter : "  </graph>\n</graphml>\n".toList = "  ".toList ++ '<' :: ("/graph".toList ++
      '>' :: '\n' :: '<' :: ("/graphml".toList ++ ['>', '\n'])) := rfl
  rw [hfooter, piecesFrom_indentation (by decide), piecesFrom_bare (by decide),
    piecesFrom_lineBreak, piecesFrom_open, piecesFrom_bare (by decide), piecesFrom_lineBreak]
  rfl

/-- The tags of the document of a graph: declarations for vertices come before those for
edges. -/
def documentPieces (graph : GraphRecord) : List Piece :=
  headerPieces ++
    ((collectKeys (graph.vertices.map (·.attributes))).map (keyPiece .node) ++
      ((collectKeys (graph.edges.map (·.attributes))).map (keyPiece .edge) ++
        graphPiece :: (graph.vertices.flatMap vertexPieces ++
          (graph.edges.zipIdx.flatMap (fun (edge, number) => edgePieces edge number) ++
            footerPieces))))

/-- **A document is cut at its own tags** and nowhere else. -/
theorem piecesFrom_document (graph : GraphRecord) :
    piecesFrom (.text []) (document graph) = documentPieces graph := by
  have hkeys : ∀ domain (keys : List Key) rest,
      piecesFrom (.text ['\n']) (keys.flatMap (declaration domain) ++ rest) =
        keys.map (keyPiece domain) ++ piecesFrom (.text ['\n']) rest := by
    intro domain keys rest
    rw [List.map_eq_flatMap]
    exact scan_flatMap (fun key rest => piecesFrom_declaration domain key rest) keys rest
  have hvertices := scan_flatMap piecesFrom_vertexLines graph.vertices
  have hedges := scan_flatMap (fun (edge : EdgeRecord × Nat) rest =>
    piecesFrom_edgeLines edge.1 edge.2 rest) graph.edges.zipIdx
  unfold document
  simp only [List.append_assoc]
  rw [piecesFrom_header, hkeys, hkeys, piecesFrom_graph, hvertices, hedges, piecesFrom_footer]
  rfl

/-! ## Reading tags -/

/-- The declaration of a key, as it is read. -/
def keyItem (domain : Domain) (key : Key) : Item :=
  .key (domain.mark ++ key.name) domain.element key.name key.type.name

/-- The data of an element, under the ids of their keys. -/
def dataOf (domain : Domain) (attributes : Attributes) : List (String × String) :=
  attributes.shown.map fun entry => (domain.mark ++ entry.1, entry.2)

/-- A vertex with its data, as it is read. -/
def vertexItem (vertex : VertexRecord) : Item :=
  .element (.vertex vertex.id) (dataOf .node vertex.attributes)

/-- An edge with its number and its data, as it is read. -/
def edgeItem (edge : EdgeRecord × Nat) : Item :=
  .element (.edge (edgeId edge.2) edge.1.source edge.1.target) (dataOf .edge edge.1.attributes)

/-- What the document of a graph lists, in the order of the document. -/
def items (graph : GraphRecord) : List Item :=
  (collectKeys (graph.vertices.map (·.attributes))).map (keyItem .node) ++
    ((collectKeys (graph.edges.map (·.attributes))).map (keyItem .edge) ++
      (graph.vertices.map vertexItem ++ graph.edges.zipIdx.map edgeItem))

/-- What tags list from a place on; nothing unless they lead to the end of the document. -/
def itemsFrom (place : Place) (pieces : List Piece) : Option (List Item) :=
  readFrom Place.step .ended place pieces

theorem itemsFrom_key (domain : Domain) (key : Key) (following : List Piece) :
    itemsFrom .declarations (keyPiece domain key :: following) =
      (itemsFrom .declarations following).map (keyItem domain key :: ·) :=
  readFrom_found rfl following

theorem itemsFrom_data (owner : Owner) (domain : Domain) (entries : List (String × String))
    (data : List (String × String)) (following : List Piece) :
    itemsFrom (.element owner data) (entries.flatMap (dataPieces domain) ++ following) =
      itemsFrom (.element owner
        (data ++ entries.map fun entry => (domain.mark ++ entry.1, entry.2))) following := by
  -- a datum takes two tags and leads back to the element that has it
  induction entries generalizing data with
  | nil => rw [List.flatMap_nil, List.map_nil, List.append_nil, List.nil_append]
  | cons entry entries ih =>
      have hopen : Place.step (.element owner data)
          (.tag ⟨indentation "      ", "data", [("key", domain.mark ++ entry.1)], false⟩) =
            some ([], .datum owner data (domain.mark ++ entry.1)) := by
        cases owner <;> rfl
      have hnext := ih (data ++ [(domain.mark ++ entry.1, entry.2)])
      rw [List.append_assoc] at hnext
      rw [List.flatMap_cons, List.append_assoc]
      exact (readFrom_next hopen _).trans ((readFrom_next rfl _).trans hnext)

/-- An element is read once its closing tag is, with all of its data. -/
theorem itemsFrom_element {owner : Owner} {opening closing : Tag}
    (hopening : Place.step .graph (.tag opening) = some ([], .element owner []))
    (hclosing : closing.name = owner.closing) (domain : Domain) (attributes : Attributes)
    (following : List Piece) :
    itemsFrom .graph (.tag opening :: (dataLinesPieces domain attributes ++
        .tag closing :: following)) =
      (itemsFrom .graph following).map (.element owner (dataOf domain attributes) :: ·) := by
  have hdata := itemsFrom_data owner domain attributes.shown [] (.tag closing :: following)
  have hclose : Place.step (.element owner (dataOf domain attributes)) (.tag closing) =
      some ([.element owner (dataOf domain attributes)], .graph) := if_pos hclosing
  exact (readFrom_next hopening _).trans (hdata.trans (readFrom_found hclose _))

theorem itemsFrom_vertex (vertex : VertexRecord) (following : List Piece) :
    itemsFrom .graph (vertexPieces vertex ++ following) =
      (itemsFrom .graph following).map (vertexItem vertex :: ·) := by
  rw [vertexPieces, List.cons_append, List.append_assoc, List.singleton_append]
  exact itemsFrom_element rfl rfl .node vertex.attributes following

theorem itemsFrom_edge (edge : EdgeRecord × Nat) (following : List Piece) :
    itemsFrom .graph (edgePieces edge.1 edge.2 ++ following) =
      (itemsFrom .graph following).map (edgeItem edge :: ·) := by
  rw [edgePieces, List.cons_append, List.append_assoc, List.singleton_append]
  exact itemsFrom_element rfl rfl .edge edge.1.attributes following

/-- **The document of a graph is read as its items.** -/
theorem items?_graphMl (graph : GraphRecord) : items? (graphMl graph) = some (items graph) := by
  have hkeys : ∀ domain (keys : List Key) following,
      itemsFrom .declarations (keys.map (keyPiece domain) ++ following) =
        (itemsFrom .declarations following).map (keys.map (keyItem domain) ++ ·) := by
    intro domain keys following
    rw [List.map_eq_flatMap]
    exact readFrom_flatMap (itemsFrom_key domain) keys following
  have hheader : ∀ following, itemsFrom .start (headerPieces ++ following) =
      itemsFrom .declarations following := fun following =>
    (readFrom_next rfl _).trans (readFrom_next rfl _)
  have hgraph : ∀ following, itemsFrom .declarations (graphPiece :: following) =
      itemsFrom .graph following := fun _ => readFrom_next rfl _
  have hvertices : ∀ following,
      itemsFrom .graph (graph.vertices.flatMap vertexPieces ++ following) =
        (itemsFrom .graph following).map (graph.vertices.map vertexItem ++ ·) :=
    readFrom_flatMap itemsFrom_vertex graph.vertices
  have hedges : ∀ following, itemsFrom .graph (graph.edges.zipIdx.flatMap
        (fun (edge, number) => edgePieces edge number) ++ following) =
      (itemsFrom .graph following).map (graph.edges.zipIdx.map edgeItem ++ ·) :=
    readFrom_flatMap itemsFrom_edge graph.edges.zipIdx
  have hfooter : itemsFrom .graph footerPieces = some [] :=
    (readFrom_next rfl _).trans ((readFrom_next rfl _).trans rfl)
  have hread : itemsFrom .start (documentPieces graph) = some (items graph) := by
    rw [documentPieces, hheader, hkeys, hkeys, hgraph, hvertices, hedges, hfooter, items]
    simp only [Option.map_some, List.append_nil]
  rw [items?, graphMl, String.toList_ofList, piecesFrom_document]
  exact hread

/-! ## Facts -/

theorem named?_dataOf {domain : Domain} {mark : Char} (hmark : domain.mark.toList = [mark, '_'])
    (attributes : Attributes) : named? mark (dataOf domain attributes) = some attributes.shown := by
  have hdatum : ∀ entry ∈ attributes.shown,
      (attributeName? mark (domain.mark ++ entry.1)).map (·, entry.2) = some entry := by
    intro entry _
    rw [attributeName?, String.toList_append, hmark]
    simp
  have hnamed : named? mark (dataOf domain attributes) = some (attributes.shown.map id) :=
    mapM_map_eq_some hdatum
  rw [hnamed, List.map_id]

theorem filterMap_vertex? (graph : GraphRecord) :
    (items graph).filterMap (·.vertex?) =
      graph.vertices.map fun vertex => (vertex.id, dataOf .node vertex.attributes) := by
  have hkey : ∀ domain key, (keyItem domain key).vertex? = none := fun _ _ => rfl
  have hvertex : ∀ vertex, (vertexItem vertex).vertex? =
      some (vertex.id, dataOf .node vertex.attributes) := fun _ => rfl
  have hedge : ∀ edge, (edgeItem edge).vertex? = none := fun _ => rfl
  simp [items, List.filterMap_map, hkey, hvertex, hedge]

theorem filterMap_edge? (graph : GraphRecord) :
    (items graph).filterMap (·.edge?) =
      graph.edges.map fun edge => (edge.source, edge.target, dataOf .edge edge.attributes) := by
  have hkey : ∀ domain key, (keyItem domain key).edge? = none := fun _ _ => rfl
  have hvertex : ∀ vertex, (vertexItem vertex).edge? = none := fun _ => rfl
  have hedge : ∀ edge, (edgeItem edge).edge? =
      some (edge.1.source, edge.1.target, dataOf .edge edge.1.attributes) := fun _ => rfl
  -- the numbers of the edges are forgotten
  have hedges : graph.edges.zipIdx.map (fun edge =>
      (edge.1.source, edge.1.target, dataOf .edge edge.1.attributes)) =
        graph.edges.map fun edge =>
          (edge.source, edge.target, dataOf .edge edge.attributes) := by
    conv_rhs => rw [← List.zipIdx_map_fst 0 graph.edges, List.map_map]
    rfl
  simp [items, List.filterMap_map, hkey, hvertex, hedge, hedges]

/-- **The GraphML document of a graph says what it is to say.** -/
theorem ofGraphMl?_graphMl (graph : GraphRecord) :
    Facts.ofGraphMl? (graphMl graph) = some graph.facts := by
  have hvertices : ((items graph).filterMap (·.vertex?)).mapM (fun (id, data) =>
      (named? 'v' data).map (id, ·)) = some graph.facts.vertices := by
    rw [filterMap_vertex?]
    have hmark : Domain.node.mark.toList = ['v', '_'] := rfl
    exact mapM_map_eq_some fun vertex _ =>
      congrArg (Option.map (vertex.id, ·)) (named?_dataOf hmark vertex.attributes)
  have hedges : ((items graph).filterMap (·.edge?)).mapM (fun (source, target, data) =>
      (named? 'e' data).map (source, target, ·)) = some graph.facts.edges := by
    rw [filterMap_edge?]
    have hmark : Domain.edge.mark.toList = ['e', '_'] := rfl
    exact mapM_map_eq_some fun edge _ =>
      congrArg (Option.map (edge.source, edge.target, ·)) (named?_dataOf hmark edge.attributes)
  rw [Facts.ofGraphMl?, items?_graphMl]
  simp only [Option.bind_eq_bind, Option.bind_some, hvertices, hedges]
  rfl

end Render.GraphMl

end ProgramGraphs
