import ProgramGraphs.Proofs.Render.Dot
import ProgramGraphs.Proofs.Render.GraphMl

/-!
# Documents lose nothing and let nothing in

The DOT and the GraphML document of a graph give back its records, whatever characters
their texts are made of.  What could go wrong is that a text ends too early and goes on
as markup, so beside what is read this file also says what markup there is:

* in DOT, the opening `digraph` is the only keyword, and every other bare word is an
  identifier or a numeral (`dot_lossless`);
* in GraphML, which tags there are, and in which order, depends on the numbers of keys,
  elements and data alone (`outline`, `graphMl_lossless`).
-/

namespace ProgramGraphs.Render

/-! ## Bare ids -/

namespace Dot

/-- An identifier: letters, digits and underscores, no digit first. -/
def IsWord (text : List Char) : Prop :=
  ∃ first rest, text = first :: rest ∧ (first.isAlpha = true ∨ first = '_') ∧
    ∀ c ∈ rest, c.isAlphanum = true ∨ c = '_'

/-- A row of digits, which may have a minus sign. -/
def IsNumber (text : List Char) : Prop :=
  ∃ digits, digits ≠ [] ∧ (∀ c ∈ digits, c.isDigit = true) ∧ (text = digits ∨ text = '-' :: digits)

/-- What may stand bare as an id. -/
structure Bare (text : String) : Prop where
  form : IsWord text.toList ∨ IsNumber text.toList
  unreserved : ∀ word ∈ reserved, text.toList.map Char.toLower ≠ word.toList

theorem isWord_of_isIdentifier {text : List Char} (hform : isIdentifier text = true) :
    IsWord text := by
  cases text with
  | nil => contradiction
  | cons first rest =>
      rw [isIdentifier, Bool.and_eq_true, List.all_eq_true] at hform
      refine ⟨first, rest, rfl, ?_, fun c hc => ?_⟩
      · simpa [startsIdentifier] using hform.1
      · simpa [continuesIdentifier] using hform.2 c hc

theorem isNumber_of_isNumeral {text : List Char} (hform : isNumeral text = true) :
    IsNumber text := by
  have hdigits : ∀ {digits}, isDigits digits = true →
      digits ≠ [] ∧ ∀ c ∈ digits, c.isDigit = true := by
    intro digits hdigits
    simpa [isDigits] using hdigits
  unfold isNumeral at hform
  split at hform
  · rename_i digits
    exact ⟨digits, (hdigits hform).1, (hdigits hform).2, .inr rfl⟩
  · exact ⟨text, (hdigits hform).1, (hdigits hform).2, .inl rfl⟩

theorem bare_of_isPlain {text : String} (hplain : isPlain text.toList = true) : Bare text := by
  obtain ⟨hform, hkeyword⟩ : (isIdentifier text.toList = true ∨ isNumeral text.toList = true) ∧
      isKeyword text.toList = false := by
    simpa [isPlain] using hplain
  constructor
  · exact hform.imp isWord_of_isIdentifier isNumber_of_isNumeral
  · intro word hword hsame
    rw [isKeyword, List.any_eq_false] at hkeyword
    exact hkeyword word (mem_keywords_of_mem_reserved word hword) (by simp [hsame])

/-- The tokens that statements are made of. -/
def Token.Ordinary : Token → Prop
  | .id quoted text => quoted = false → Bare text
  | .arrow | .mark _ => True
  | .keyword _ | .stray => False

theorem ordinary_idToken (text : String) : (idToken text).Ordinary := by
  intro hbare
  exact bare_of_isPlain (by simpa using hbare)

theorem ordinary_assignmentsTokens (entries : List (String × String)) :
    ∀ token ∈ assignmentsTokens entries, token.Ordinary := by
  have hassignment : ∀ entry, ∀ token ∈ assignmentTokens entry, token.Ordinary := by
    intro entry token htoken
    simp only [assignmentTokens, List.mem_cons, List.not_mem_nil, or_false] at htoken
    rcases htoken with rfl | rfl | rfl
    · exact ordinary_idToken entry.1
    · trivial
    · exact fun hquoted => absurd hquoted (by decide)
  induction entries with
  | nil => exact fun token htoken => absurd htoken List.not_mem_nil
  | cons entry entries ih =>
      cases entries with
      | nil => exact hassignment entry
      | cons next entries =>
          intro token htoken
          rw [assignmentsTokens, List.mem_append, List.mem_cons] at htoken
          · rcases htoken with htoken | rfl | htoken
            · exact hassignment entry token htoken
            · trivial
            · exact ih token htoken
          · exact List.cons_ne_nil next entries

theorem ordinary_statementTokens (statement : Statement) :
    ∀ token ∈ statementTokens statement, token.Ordinary := by
  obtain ⟨subject, attributes⟩ := statement
  have hsubject : ∀ token ∈ subjectTokens subject, token.Ordinary := by
    intro token htoken
    cases subject with
    | vertex id =>
        obtain rfl := List.mem_singleton.mp htoken
        exact ordinary_idToken id
    | edge source target =>
        simp only [subjectTokens, List.mem_cons, List.not_mem_nil, or_false] at htoken
        rcases htoken with rfl | rfl | rfl
        · exact ordinary_idToken source
        · trivial
        · exact ordinary_idToken target
  have hattributes : ∀ token ∈ attributeTokens attributes, token.Ordinary := by
    intro token htoken
    unfold attributeTokens at htoken
    split at htoken
    · exact absurd htoken List.not_mem_nil
    · rw [List.mem_append, List.mem_cons, List.mem_singleton] at htoken
      rcases htoken with (rfl | htoken) | rfl
      · trivial
      · exact ordinary_assignmentsTokens attributes token htoken
      · trivial
  intro token htoken
  rw [statementTokens, List.mem_append, List.mem_append, List.mem_singleton] at htoken
  rcases htoken with (htoken | htoken) | rfl
  · exact hsubject token htoken
  · exact hattributes token htoken
  · trivial

/-- After the opening keyword a document has ordinary tokens only. -/
theorem exists_ordinary_body (graph : GraphRecord) :
    ∃ body, tokensFrom .between (dot graph).toList = .keyword "digraph" :: body ∧
      ∀ token ∈ body, token.Ordinary := by
  refine ⟨_, (congrArg _ String.toList_ofList).trans (tokensFrom_document graph), ?_⟩
  intro token htoken
  rw [List.mem_cons, List.mem_cons, List.mem_append, List.mem_singleton] at htoken
  rcases htoken with rfl | rfl | htoken | rfl
  · exact fun _ => bare_of_isPlain (by decide)
  · trivial
  · obtain ⟨statement, -, htoken⟩ := List.mem_flatMap.mp htoken
    exact ordinary_statementTokens statement token htoken
  · trivial

/-- **A DOT document gives back its graph.**  Its statements are those of the vertices,
each with its caption first, and then those of the edges.  It opens with its only
keyword; bare ids are identifiers and numerals and no keywords in any letter case. -/
theorem dot_lossless (graph : GraphRecord) :
    statements? (dot graph) = some
        (graph.vertices.map (fun vertex =>
            ⟨.vertex vertex.id, ("label", vertex.caption) :: vertex.attributes.shown⟩) ++
          graph.edges.map fun edge =>
            ⟨.edge edge.source edge.target, edge.attributes.shown⟩) ∧
      ∃ body, tokensFrom .between (dot graph).toList = .keyword "digraph" :: body ∧
        .stray ∉ body ∧ (∀ word, .keyword word ∉ body) ∧
        ∀ text, .id false text ∈ body → Bare text := by
  obtain ⟨body, htokens, hordinary⟩ := exists_ordinary_body graph
  refine ⟨statements?_dot graph, body, htokens, ?_, ?_, ?_⟩
  · exact fun hstray => hordinary _ hstray
  · exact fun word hword => hordinary _ hword
  · exact fun text htext => hordinary _ htext rfl

/-- A graph with a keyword, a number and a closing bracket where they could be mistaken. -/
def misleading : GraphRecord where
  vertices := [⟨"Node", "a_1", ⟨[("edge", .text "]; b -> c")]⟩⟩, ⟨"a_1", "", ⟨[]⟩⟩]
  edges := [⟨"a_1", "-7", ⟨[("9b", .null)]⟩⟩]

theorem dot_lossless_misleading :
    ∃ body, tokensFrom .between (dot misleading).toList = .keyword "digraph" :: body ∧
      .id true "Node" ∈ body ∧ .id false "a_1" ∈ body ∧ Bare "a_1" := by
  obtain ⟨-, body, htokens, -, -, hbare⟩ := dot_lossless misleading
  have hbody : body = .id false "G" :: .mark '\x7b' ::
      ((statements misleading).flatMap statementTokens ++ [.mark '\x7d']) := by
    rw [dot, String.toList_ofList, tokensFrom_document] at htokens
    exact (List.cons.inj htokens).2.symm
  have hquoted : .id true "Node" ∈ body := by
    rw [hbody]
    decide
  have hword : .id false "a_1" ∈ body := by
    rw [hbody]
    decide
  exact ⟨body, htokens, hquoted, hword, hbare "a_1" hword⟩

end Dot

/-! ## Tags -/

namespace GraphMl

/-- The name of a tag, with the slash of a closing one. -/
def Piece.tagName? : Piece → Option String
  | .tag { name, .. } => some name
  | .stray => none

/-- The names of the tags of an element with some number of data. -/
def elementOutline (name : String) (data : Nat) : List String :=
  name :: ((List.replicate data ["data", "/data"]).flatten ++ ["/" ++ name])

/-- The names of the tags of a document with some number of keys, and with vertices and
edges that have some number of data each. -/
def outline (keys : Nat) (vertices edges : List Nat) : List String :=
  ["?xml", "graphml"] ++ List.replicate keys "key" ++ ["graph"] ++
    vertices.flatMap (elementOutline "node") ++ edges.flatMap (elementOutline "edge") ++
    ["/graph", "/graphml"]

/-- The outline of the document of a graph. -/
def outlineOf (graph : GraphRecord) : List String :=
  outline
    ((collectKeys (graph.vertices.map (·.attributes))).length +
      (collectKeys (graph.edges.map (·.attributes))).length)
    (graph.vertices.map (·.attributes.shown.length)) (graph.edges.map (·.attributes.shown.length))

theorem filterMap_dataLinesPieces (domain : Domain) (attributes : Attributes) :
    (dataLinesPieces domain attributes).filterMap Piece.tagName? =
      (List.replicate attributes.shown.length ["data", "/data"]).flatten := by
  unfold dataLinesPieces
  induction attributes.shown with
  | nil => rfl
  | cons entry entries ih =>
      rw [List.flatMap_cons, List.filterMap_append, ih]
      rfl

theorem filterMap_element (opening closing : Tag) (domain : Domain) (attributes : Attributes) :
    (.tag opening :: (dataLinesPieces domain attributes ++ [.tag closing])).filterMap
        Piece.tagName? =
      opening.name :: ((List.replicate attributes.shown.length ["data", "/data"]).flatten ++
        [closing.name]) := by
  have hopening : (Piece.tag opening).tagName? = some opening.name := rfl
  rw [List.filterMap_cons_some hopening, List.filterMap_append, filterMap_dataLinesPieces]
  rfl

theorem filterMap_vertexPieces (vertex : VertexRecord) :
    (vertexPieces vertex).filterMap Piece.tagName? =
      elementOutline "node" vertex.attributes.shown.length :=
  filterMap_element _ _ .node vertex.attributes

theorem filterMap_edgePieces (edge : EdgeRecord) (number : Nat) :
    (edgePieces edge number).filterMap Piece.tagName? =
      elementOutline "edge" edge.attributes.shown.length :=
  filterMap_element _ _ .edge edge.attributes

theorem filterMap_keyPieces (domain : Domain) (keys : List Key) :
    (keys.map (keyPiece domain)).filterMap Piece.tagName? = List.replicate keys.length "key" := by
  rw [List.filterMap_map, ← List.map_const', ← List.filterMap_eq_map]
  rfl

theorem filterMap_documentPieces (graph : GraphRecord) :
    (documentPieces graph).filterMap Piece.tagName? = outlineOf graph := by
  have hvertices : (graph.vertices.flatMap vertexPieces).filterMap Piece.tagName? =
      (graph.vertices.map (·.attributes.shown.length)).flatMap (elementOutline "node") := by
    rw [List.filterMap_flatMap, List.flatMap_map]
    exact List.flatMap_congr fun vertex _ => filterMap_vertexPieces vertex
  have hedges : ∀ pieces : EdgeRecord × Nat → List Piece,
      (∀ edge, pieces edge = edgePieces edge.1 edge.2) →
        (graph.edges.zipIdx.flatMap pieces).filterMap Piece.tagName? =
          (graph.edges.map (·.attributes.shown.length)).flatMap (elementOutline "edge") := by
    intro pieces hpieces
    rw [List.filterMap_flatMap]
    conv_rhs => rw [← List.zipIdx_map_fst 0 graph.edges, List.map_map, List.flatMap_map]
    refine List.flatMap_congr fun edge _ => ?_
    rw [hpieces]
    exact filterMap_edgePieces edge.1 edge.2
  have hheader : headerPieces.filterMap Piece.tagName? = ["?xml", "graphml"] := rfl
  have hfooter : footerPieces.filterMap Piece.tagName? = ["/graph", "/graphml"] := rfl
  have hgraph : graphPiece.tagName? = some "graph" := rfl
  rw [documentPieces, outlineOf, outline, List.replicate_add]
  simp only [List.filterMap_append, List.filterMap_cons_some hgraph, filterMap_keyPieces, hvertices,
    hedges _ fun _ => rfl, hheader, hfooter, List.append_assoc, List.cons_append, List.nil_append]

theorem stray_notMem_documentPieces (graph : GraphRecord) : .stray ∉ documentPieces graph := by
  simp [documentPieces, headerPieces, footerPieces, keyPiece, graphPiece, vertexPieces, edgePieces,
    dataLinesPieces, dataPieces]

theorem edgeId_eq (number : Nat) : edgeId number = "e" ++ toString number := by
  apply String.toList_injective
  rw [edgeId, String.toList_ofList, String.toList_append]
  simp [toString, Nat.repr]

/-- **A GraphML document gives back its graph**: the declarations for vertices and then
for edges, the vertices, and the numbered edges.  It is cut at the tags of its outline
and nowhere else. -/
theorem graphMl_lossless (graph : GraphRecord) :
    items? (graphMl graph) = some
        ((collectKeys (graph.vertices.map (·.attributes))).map (fun key =>
            Item.key ("v_" ++ key.name) "node" key.name key.type.name) ++
          (collectKeys (graph.edges.map (·.attributes))).map (fun key =>
            Item.key ("e_" ++ key.name) "edge" key.name key.type.name) ++
          graph.vertices.map (fun vertex => Item.element (.vertex vertex.id)
            (vertex.attributes.shown.map fun entry => ("v_" ++ entry.1, entry.2))) ++
          graph.edges.zipIdx.map fun edge =>
            Item.element (.edge ("e" ++ toString edge.2) edge.1.source edge.1.target)
              (edge.1.attributes.shown.map fun entry => ("e_" ++ entry.1, entry.2))) ∧
      .stray ∉ piecesFrom (.text []) (graphMl graph).toList ∧
      (piecesFrom (.text []) (graphMl graph).toList).filterMap Piece.tagName? =
        outlineOf graph := by
  have hpieces : piecesFrom (.text []) (graphMl graph).toList = documentPieces graph := by
    rw [graphMl, String.toList_ofList, piecesFrom_document]
  have hedge : edgeItem = fun edge =>
      Item.element (.edge ("e" ++ toString edge.2) edge.1.source edge.1.target)
        (edge.1.attributes.shown.map fun entry => ("e_" ++ entry.1, entry.2)) := by
    funext edge
    rw [edgeItem, edgeId_eq]
    rfl
  rw [hpieces]
  refine ⟨?_, stray_notMem_documentPieces graph, filterMap_documentPieces graph⟩
  rw [items?_graphMl, items, List.append_assoc, List.append_assoc, hedge]
  rfl

end GraphMl

end ProgramGraphs.Render
