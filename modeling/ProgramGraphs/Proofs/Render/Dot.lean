import ProgramGraphs.Proofs.Render.Facts
import ProgramGraphs.Proofs.Render.Reading
import ProgramGraphs.Render.Dot

/-!
# What a DOT document says

A DOT document is cut into tokens, and the tokens into statements.  Both readers go
over their input once and keep in their state what they are in the middle of.  An id
is a bare identifier, a bare numeral or a quoted text, in which a backslash protects
the character after it; a bare keyword is no id, in whatever letter case.

The document of a graph is read as the statements of its vertices and then those of
its edges (`statements?_dot`), so it says what it is to say (`ofDot?_dot`).
-/

namespace ProgramGraphs.Render.Dot

/-! ## Tokens -/

/-- A piece of a DOT document. -/
inductive Token where
  /-- An id, which is quoted or bare. -/
  | id (quoted : Bool) (text : String)
  /-- A keyword, in lower case. -/
  | keyword (word : String)
  | arrow
  | mark (c : Char)
  /-- A place where no token stands. -/
  | stray
  deriving DecidableEq, Repr

/-- What a reader of characters is in the middle of; the characters so far are kept
with the last one first. -/
inductive Mode where
  | between
  | word (reversed : List Char)
  | numeral (reversed : List Char)
  /-- After a minus sign. -/
  | dash
  | quoted (reversed : List Char)
  /-- After a backslash inside quotes. -/
  | escaped (reversed : List Char)
  deriving DecidableEq, Repr

/-- The words that are reserved. -/
def reserved : List String := ["strict", "graph", "digraph", "subgraph", "node", "edge"]

/-- The token of a bare word. -/
def wordToken (word : List Char) : Token :=
  let lower := String.ofList (word.map Char.toLower)
  if reserved.contains lower then .keyword lower else .id false (String.ofList word)

namespace Mode

/-- A character with which something new starts. -/
def start (c : Char) : List Token × Mode :=
  if c = ' ' ∨ c = '\n' then ([], .between)
  else if c = '"' then ([], .quoted [])
  else if c = '-' then ([], .dash)
  else if c.isDigit then ([], .numeral [c])
  else if c.isAlpha ∨ c = '_' then ([], .word [c])
  else if "\x7b\x7d[]=,;".toList.contains c then ([.mark c], .between)
  else ([.stray], .between)

/-- A character that comes after a token is complete. -/
def startAfter (token : Token) (c : Char) : List Token × Mode :=
  (token :: (start c).1, (start c).2)

/-- What one more character completes, and what it leaves open. -/
def step : Mode → Char → List Token × Mode
  | .between, c => start c
  | .word reversed, c =>
    if c.isAlphanum ∨ c = '_' then ([], .word (c :: reversed))
    else startAfter (wordToken reversed.reverse) c
  | .numeral reversed, c =>
    if c.isDigit then ([], .numeral (c :: reversed))
    else startAfter (.id false (String.ofList reversed.reverse)) c
  | .dash, c =>
    if c = '>' then ([.arrow], .between)
    else if c.isDigit then ([], .numeral [c, '-'])
    else ([.stray], .between)
  | .quoted reversed, c =>
    if c = '"' then ([.id true (String.ofList reversed.reverse)], .between)
    else if c = '\\' then ([], .escaped reversed)
    else ([], .quoted (c :: reversed))
  | .escaped reversed, c => ([], .quoted (c :: reversed))

/-- What the end of the document completes. -/
def finish : Mode → List Token
  | .between => []
  | .word reversed => [wordToken reversed.reverse]
  | .numeral reversed => [.id false (String.ofList reversed.reverse)]
  | _ => [.stray]

end Mode

/-- The tokens of a row of characters, where a reader is in the middle of something. -/
def tokensFrom (mode : Mode) : List Char → List Token
  | [] => mode.finish
  | c :: rest => (mode.step c).1 ++ tokensFrom (mode.step c).2 rest

/-! ## Statements -/

/-- What a statement is about. -/
inductive Subject where
  | vertex (id : String)
  | edge (source target : String)
  deriving DecidableEq, Repr

/-- A statement. -/
structure Statement where
  subject : Subject
  attributes : List (String × String)
  deriving DecidableEq, Repr

/-- Where in a statement a reader of tokens stands. -/
inductive Place where
  /-- A statement or the end of the document may follow. -/
  | start
  | afterSubject (subject : Subject)
  | afterArrow (source : String)
  /-- The name of an attribute must follow. -/
  | beforeName (subject : Subject) (attributes : List (String × String))
  | afterName (subject : Subject) (attributes : List (String × String)) (name : String)
  | afterEquals (subject : Subject) (attributes : List (String × String)) (name : String)
  | afterValue (subject : Subject) (attributes : List (String × String))
  | afterList (subject : Subject) (attributes : List (String × String))
  | ended
  deriving DecidableEq, Repr

/-- The statement that one more token completes, if it does, and where it leads; nothing
where the token may not stand. -/
def Place.step : Place → Token → Option (List Statement × Place)
  | .start, .id _ id => some ([], .afterSubject (.vertex id))
  | .start, .mark '\x7d' => some ([], .ended)
  | .afterSubject (.vertex source), .arrow => some ([], .afterArrow source)
  | .afterSubject subject, .mark '[' => some ([], .beforeName subject [])
  | .afterSubject subject, .mark ';' => some ([⟨subject, []⟩], .start)
  | .afterArrow source, .id _ target => some ([], .afterSubject (.edge source target))
  | .beforeName subject attributes, .id _ name => some ([], .afterName subject attributes name)
  | .afterName subject attributes name, .mark '=' => some ([], .afterEquals subject attributes name)
  | .afterEquals subject attributes name, .id _ value =>
    some ([], .afterValue subject (attributes ++ [(name, value)]))
  | .afterValue subject attributes, .mark ',' => some ([], .beforeName subject attributes)
  | .afterValue subject attributes, .mark ']' => some ([], .afterList subject attributes)
  | .afterList subject attributes, .mark ';' => some ([⟨subject, attributes⟩], .start)
  | _, _ => none

/-- The statements of a row of tokens from a place on; there are none unless the row is
read up to the end of the document. -/
def statementsFrom (place : Place) (tokens : List Token) : Option (List Statement) :=
  readFrom Place.step .ended place tokens

/-- The statements of a DOT document of a directed graph. -/
def statements? (text : String) : Option (List Statement) :=
  match tokensFrom .between text.toList with
  | .keyword word :: .id _ _ :: .mark '\x7b' :: rest =>
    if word = "digraph" then statementsFrom .start rest else none
  | _ => none

namespace Statement

/-- What the statement of a vertex says, whose first attribute only labels it. -/
def vertexFacts? : Statement → Option (String × List (String × String))
  | ⟨.vertex id, (name, _) :: attributes⟩ => if name = "label" then some (id, attributes) else none
  | _ => none

/-- What the statement of an edge says. -/
def edgeFacts? : Statement → Option (String × String × List (String × String))
  | ⟨.edge source target, attributes⟩ => some (source, target, attributes)
  | _ => none

end Statement

end Render.Dot

/-- What a DOT document of a graph says. -/
def Facts.ofDot? (text : String) : Option Facts :=
  (Render.Dot.statements? text).map fun statements =>
    { vertices := statements.filterMap (·.vertexFacts?)
      edges := statements.filterMap (·.edgeFacts?) }

namespace Render.Dot

/-! ## The tokens of ids -/

variable {rest : List Char}

/-- A row of characters that does not go on with a bare id. -/
def EndsId (rest : List Char) : Prop := ∀ c ∈ rest.head?, c.isAlphanum = false ∧ c ≠ '_'

theorem endsId_cons {c : Char} (hc : c.isAlphanum = false ∧ c ≠ '_') (rest : List Char) :
    EndsId (c :: rest) := by
  intro d hd
  obtain rfl := Option.some.inj hd
  exact hc

theorem tokensFrom_between (c : Char) (rest : List Char) :
    tokensFrom .between (c :: rest) = (Mode.start c).1 ++ tokensFrom (Mode.start c).2 rest := rfl

theorem tokensFrom_escaped (reversed text : List Char) (rest : List Char) :
    tokensFrom (.quoted reversed) (text.flatMap escape ++ '"' :: rest) =
      .id true (String.ofList (reversed.reverse ++ text)) :: tokensFrom .between rest := by
  induction text generalizing reversed with
  | nil => simp [tokensFrom, Mode.step]
  | cons c text ih =>
      -- one character is collected, whether it is written as one or as two
      have hpush :
          tokensFrom (.quoted reversed) (escape c ++ (text.flatMap escape ++ '"' :: rest)) =
            tokensFrom (.quoted (c :: reversed)) (text.flatMap escape ++ '"' :: rest) := by
        unfold escape
        split_ifs with hbackslash hquote
        · subst hbackslash
          rfl
        · subst hquote
          rfl
        · simp [tokensFrom, Mode.step, hbackslash, hquote]
      rw [List.flatMap_cons, List.append_assoc, hpush, ih, List.reverse_cons, List.append_assoc]
      rfl

theorem tokensFrom_quoted (text : String) (rest : List Char) :
    tokensFrom .between (quoted text ++ rest) = .id true text :: tokensFrom .between rest := by
  have hopen : quoted text ++ rest = '"' :: (text.toList.flatMap escape ++ '"' :: rest) := by
    simp [quoted]
  rw [hopen]
  exact (tokensFrom_escaped [] text.toList rest).trans (by simp)

theorem tokensFrom_word (reversed : List Char) {text : List Char}
    (htext : text.all continuesIdentifier = true) (hends : EndsId rest) :
    tokensFrom (.word reversed) (text ++ rest) =
      wordToken (reversed.reverse ++ text) :: tokensFrom .between rest := by
  induction text generalizing reversed with
  | nil =>
      cases rest with
      | nil => simp [tokensFrom, Mode.finish]
      | cons c rest =>
          have hc := hends c rfl
          simp [tokensFrom, Mode.step, hc, Mode.startAfter]
  | cons c text ih =>
      rw [List.all_cons, Bool.and_eq_true] at htext
      have hc : c.isAlphanum = true ∨ c = '_' := by simpa [continuesIdentifier] using htext.1
      have hstep : tokensFrom (.word reversed) (c :: (text ++ rest)) =
          tokensFrom (.word (c :: reversed)) (text ++ rest) := by
        simp [tokensFrom, Mode.step, hc]
      rw [List.cons_append, hstep, ih _ htext.2, List.reverse_cons, List.append_assoc]
      rfl

theorem tokensFrom_numeral (reversed : List Char) {text : List Char}
    (htext : text.all Char.isDigit = true) (hends : EndsId rest) :
    tokensFrom (.numeral reversed) (text ++ rest) =
      .id false (String.ofList (reversed.reverse ++ text)) :: tokensFrom .between rest := by
  induction text generalizing reversed with
  | nil =>
      cases rest with
      | nil => simp [tokensFrom, Mode.finish]
      | cons c rest =>
          have hc : c.isDigit = false := by
            have hends := (hends c rfl).1
            simp_all [Char.isAlphanum]
          simp [tokensFrom, Mode.step, hc, Mode.startAfter]
  | cons c text ih =>
      rw [List.all_cons, Bool.and_eq_true] at htext
      have hstep : tokensFrom (.numeral reversed) (c :: (text ++ rest)) =
          tokensFrom (.numeral (c :: reversed)) (text ++ rest) := by
        simp [tokensFrom, Mode.step, htext.1]
      rw [List.cons_append, hstep, ih _ htext.2, List.reverse_cons, List.append_assoc]
      rfl

theorem mem_keywords_of_mem_reserved : ∀ word ∈ reserved, word ∈ keywords := by decide

theorem wordToken_eq {text : List Char} (hkeyword : isKeyword text = false) :
    wordToken text = .id false (String.ofList text) := by
  have hreserved : reserved.contains (String.ofList (text.map Char.toLower)) = false := by
    rw [isKeyword, List.any_eq_false] at hkeyword
    rw [Bool.eq_false_iff, Ne, List.contains_iff_mem]
    intro hmem
    exact hkeyword _ (mem_keywords_of_mem_reserved _ hmem) (by simp)
  rw [wordToken, hreserved]
  rfl

theorem start_of_isDigit {c : Char} (hc : c.isDigit = true) :
    Mode.start c = ([], .numeral [c]) := by
  have hblank : ¬ (c = ' ' ∨ c = '\n') := by rintro (rfl | rfl) <;> contradiction
  have hquote : c ≠ '"' := by rintro rfl; contradiction
  have hdash : c ≠ '-' := by rintro rfl; contradiction
  rw [Mode.start, if_neg hblank, if_neg hquote, if_neg hdash, if_pos hc]

theorem start_of_startsIdentifier {c : Char} (hc : startsIdentifier c = true) :
    Mode.start c = ([], .word [c]) := by
  have hletter : c.isAlpha = true ∨ c = '_' := by simpa [startsIdentifier] using hc
  have hblank : ¬ (c = ' ' ∨ c = '\n') := by rintro (rfl | rfl) <;> contradiction
  have hquote : c ≠ '"' := by rintro rfl; contradiction
  have hdash : c ≠ '-' := by rintro rfl; contradiction
  have hdigit : ¬ c.isDigit = true := by
    rcases hletter with hletter | rfl
    · simp only [Char.isAlpha, Char.isUpper, Char.isLower, Char.isDigit, Bool.or_eq_true,
        Bool.and_eq_true, decide_eq_true_eq, ge_iff_le, UInt32.le_iff_toNat_le] at hletter ⊢
      change (65 ≤ c.toNat ∧ c.toNat ≤ 90) ∨ 97 ≤ c.toNat ∧ c.toNat ≤ 122 at hletter
      change ¬ (48 ≤ c.toNat ∧ c.toNat ≤ 57)
      omega
    · decide
  rw [Mode.start, if_neg hblank, if_neg hquote, if_neg hdash, if_neg hdigit, if_pos hletter]

/-- The token of an id, which is quoted when it would not be read as one word. -/
def idToken (text : String) : Token := .id (!isPlain text.toList) text

/-- A bare word is one token. -/
theorem tokensFrom_identifier {text : List Char} (hform : isIdentifier text = true)
    (hends : EndsId rest) :
    tokensFrom .between (text ++ rest) = wordToken text :: tokensFrom .between rest := by
  cases text with
  | nil => contradiction
  | cons c text =>
      rw [isIdentifier, Bool.and_eq_true] at hform
      rw [List.cons_append, tokensFrom_between, start_of_startsIdentifier hform.1,
        tokensFrom_word [c] hform.2 hends]
      rfl

theorem tokensFrom_isNumeral {text : List Char} (hform : isNumeral text = true)
    (hends : EndsId rest) :
    tokensFrom .between (text ++ rest) =
      .id false (String.ofList text) :: tokensFrom .between rest := by
  unfold isNumeral at hform
  split at hform
  · rename_i digits
    obtain ⟨hne, hdigits⟩ : digits ≠ [] ∧ digits.all Char.isDigit = true := by
      simpa [isDigits] using hform
    obtain ⟨c, following, rfl⟩ := List.exists_cons_of_ne_nil hne
    rw [List.all_cons, Bool.and_eq_true] at hdigits
    have hdash : tokensFrom .between ('-' :: c :: (following ++ rest)) =
        tokensFrom (.numeral [c, '-']) (following ++ rest) := by
      have hc : c ≠ '>' := by rintro rfl; exact absurd hdigits.1 (by decide)
      have hnone : Mode.start '-' = ([], .dash) := rfl
      have hstep : Mode.dash.step c = ([], .numeral [c, '-']) := by
        rw [Mode.step, if_neg hc, if_pos hdigits.1]
      rw [tokensFrom_between, hnone, tokensFrom, hstep]
      rfl
    rw [List.cons_append, List.cons_append, hdash, tokensFrom_numeral _ hdigits.2 hends]
    rfl
  · obtain ⟨hne, hdigits⟩ : text ≠ [] ∧ text.all Char.isDigit = true := by
      simpa [isDigits] using hform
    obtain ⟨c, following, rfl⟩ := List.exists_cons_of_ne_nil hne
    rw [List.all_cons, Bool.and_eq_true] at hdigits
    rw [List.cons_append, tokensFrom_between, start_of_isDigit hdigits.1,
      tokensFrom_numeral [c] hdigits.2 hends]
    rfl

/-- **An id is one token**, which holds its text. -/
theorem tokensFrom_idText (text : String) (hends : EndsId rest) :
    tokensFrom .between (idText text ++ rest) = idToken text :: tokensFrom .between rest := by
  unfold idText idToken
  split_ifs with hplain
  · rw [hplain]
    obtain ⟨hform, hkeyword⟩ : (isIdentifier text.toList ∨ isNumeral text.toList) ∧
        isKeyword text.toList = false := by
      simpa [isPlain] using hplain
    have htext : String.ofList text.toList = text := String.ofList_toList
    rcases hform with hform | hform
    · rw [tokensFrom_identifier hform hends, wordToken_eq hkeyword, htext]
      rfl
    · rw [tokensFrom_isNumeral hform hends, htext]
      rfl
  · rw [tokensFrom_quoted, Bool.eq_false_iff.mpr hplain]
    rfl

/-! ## The tokens of statements -/

/-- The tokens of an assignment, whose value is always quoted. -/
def assignmentTokens (entry : String × String) : List Token :=
  [idToken entry.1, .mark '=', .id true entry.2]

/-- The tokens of assignments, after what is given. -/
def assignmentsTokens : List (String × String) → List Token
  | [] => []
  | [entry] => assignmentTokens entry
  | entry :: rest => assignmentTokens entry ++ .mark ',' :: assignmentsTokens rest

/-- The tokens of a list of attributes, which is left out when it is empty. -/
def attributeTokens (entries : List (String × String)) : List Token :=
  if entries.isEmpty then [] else .mark '[' :: assignmentsTokens entries ++ [.mark ']']

theorem tokensFrom_assignment (entry : String × String) (rest : List Char) :
    tokensFrom .between (assignment entry ++ rest) =
      assignmentTokens entry ++ tokensFrom .between rest := by
  have hequals : ∀ following, tokensFrom .between ('=' :: following) =
      .mark '=' :: tokensFrom .between following := fun _ => rfl
  have hends := endsId_cons (c := '=') (by decide) (quoted entry.2 ++ rest)
  rw [assignment, List.append_assoc, List.cons_append, tokensFrom_idText _ hends, hequals,
    tokensFrom_quoted]
  rfl

theorem tokensFrom_commaSeparated (entries : List (String × String)) (rest : List Char) :
    tokensFrom .between (commaSeparated (entries.map assignment) ++ rest) =
      assignmentsTokens entries ++ tokensFrom .between rest := by
  have hcomma : ∀ following, tokensFrom .between (", ".toList ++ following) =
      .mark ',' :: tokensFrom .between following := fun _ => rfl
  -- by two elements, as the commas stand between them
  match entries with
  | [] => rfl
  | [entry] => exact tokensFrom_assignment entry rest
  | entry :: next :: entries =>
      have hnext := tokensFrom_commaSeparated (next :: entries) rest
      simp only [List.map_cons, commaSeparated, assignmentsTokens, List.append_assoc,
        List.cons_append] at hnext ⊢
      rw [tokensFrom_assignment, hcomma, hnext]

/-- A list of attributes and the end of its statement. -/
theorem tokensFrom_attributeList (entries : List (String × String)) (rest : List Char) :
    tokensFrom .between (attributeList entries ++ ";\n".toList ++ rest) =
      attributeTokens entries ++ .mark ';' :: tokensFrom .between rest := by
  unfold attributeList attributeTokens
  split
  · rfl
  · have hopen : ∀ following, tokensFrom .between (" [".toList ++ following) =
        .mark '[' :: tokensFrom .between following := fun _ => rfl
    have hclose : ∀ following, tokensFrom .between ("]".toList ++ (";\n".toList ++ following)) =
        .mark ']' :: .mark ';' :: tokensFrom .between following := fun _ => rfl
    simp only [List.append_assoc]
    rw [hopen, tokensFrom_commaSeparated, hclose]
    simp

theorem endsId_attributeList (entries : List (String × String)) (rest : List Char) :
    EndsId (attributeList entries ++ ";\n".toList ++ rest) := by
  unfold attributeList
  split
  · exact endsId_cons (c := ';') (by decide) _
  · exact endsId_cons (c := ' ') (by decide) _

/-- The tokens that name a vertex or the ends of an edge. -/
def subjectTokens : Subject → List Token
  | .vertex id => [idToken id]
  | .edge source target => [idToken source, .arrow, idToken target]

/-- The tokens of a statement, with the semicolon that closes it. -/
def statementTokens (statement : Statement) : List Token :=
  subjectTokens statement.subject ++ attributeTokens statement.attributes ++ [.mark ';']

/-- The statement that a vertex is written as: its caption comes before its attributes. -/
def ofVertex (vertex : VertexRecord) : Statement :=
  ⟨.vertex vertex.id, ("label", vertex.caption) :: vertex.attributes.shown⟩

/-- The statement that an edge is written as. -/
def ofEdge (edge : EdgeRecord) : Statement :=
  ⟨.edge edge.source edge.target, edge.attributes.shown⟩

theorem tokensFrom_blanks (following : List Char) :
    tokensFrom .between ("  ".toList ++ following) = tokensFrom .between following := rfl

theorem tokensFrom_vertexStatement (vertex : VertexRecord) (rest : List Char) :
    tokensFrom .between (vertexStatement vertex ++ rest) =
      statementTokens (ofVertex vertex) ++ tokensFrom .between rest := by
  have hlist := tokensFrom_attributeList (("label", vertex.caption) :: vertex.attributes.shown) rest
  have hends := endsId_attributeList (("label", vertex.caption) :: vertex.attributes.shown) rest
  have hid := tokensFrom_idText vertex.id hends
  rw [hlist] at hid
  have hsplit : vertexStatement vertex ++ rest = "  ".toList ++ (idText vertex.id ++
      (attributeList (("label", vertex.caption) :: vertex.attributes.shown) ++ ";\n".toList ++
        rest)) := by
    simp only [vertexStatement, List.append_assoc]
  rw [hsplit, tokensFrom_blanks, hid]
  simp [statementTokens, ofVertex, subjectTokens]

theorem tokensFrom_edgeStatement (edge : EdgeRecord) (rest : List Char) :
    tokensFrom .between (edgeStatement edge ++ rest) =
      statementTokens (ofEdge edge) ++ tokensFrom .between rest := by
  have hlist := tokensFrom_attributeList edge.attributes.shown rest
  have htarget := tokensFrom_idText edge.target (endsId_attributeList edge.attributes.shown rest)
  rw [hlist] at htarget
  have harrow : ∀ following, tokensFrom .between (" -> ".toList ++ following) =
      .arrow :: tokensFrom .between following := fun _ => rfl
  have hends : ∀ following, EndsId (" -> ".toList ++ following) := fun _ =>
    endsId_cons (c := ' ') (by decide) _
  have hsplit : edgeStatement edge ++ rest = "  ".toList ++ (idText edge.source ++
      (" -> ".toList ++ (idText edge.target ++
        (attributeList edge.attributes.shown ++ ";\n".toList ++ rest)))) := by
    simp only [edgeStatement, List.append_assoc]
  rw [hsplit, tokensFrom_blanks, tokensFrom_idText edge.source (hends _), harrow, htarget]
  simp [statementTokens, ofEdge, subjectTokens]

/-- What the document of a graph states, in the order of the document. -/
def statements (graph : GraphRecord) : List Statement :=
  graph.vertices.map ofVertex ++ graph.edges.map ofEdge

theorem tokensFrom_header (following : List Char) :
    tokensFrom .between ("digraph G \x7b\n".toList ++ following) =
      .keyword "digraph" :: .id false "G" :: .mark '\x7b' :: tokensFrom .between following := by
  have hword : wordToken "digraph".toList = .keyword "digraph" := by
    have hlower : String.ofList ("digraph".toList.map Char.toLower) = "digraph" := rfl
    have hreserved : reserved.contains "digraph" = true := by decide
    rw [wordToken, hlower, if_pos hreserved]
  have hname : wordToken "G".toList = .id false "G" := wordToken_eq (by decide)
  have hblank : ∀ text, tokensFrom .between (' ' :: text) = tokensFrom .between text :=
    fun _ => rfl
  have hopen : tokensFrom .between ('\x7b' :: '\n' :: following) =
      .mark '\x7b' :: tokensFrom .between following := rfl
  have hends : ∀ text, EndsId (' ' :: text) := endsId_cons (by decide)
  have hsplit : "digraph G \x7b\n".toList ++ following = "digraph".toList ++
      ' ' :: ("G".toList ++ ' ' :: '\x7b' :: '\n' :: following) := rfl
  rw [hsplit, tokensFrom_identifier (by decide) (hends _), hword, hblank,
    tokensFrom_identifier (by decide) (hends _), hname, hblank, hopen]

/-- **A document is cut into the tokens of its statements**, between the opening and
the closing brace. -/
theorem tokensFrom_document (graph : GraphRecord) :
    tokensFrom .between (document graph) =
      .keyword "digraph" :: .id false "G" :: .mark '\x7b' ::
        ((statements graph).flatMap statementTokens ++ [.mark '\x7d']) := by
  have hfooter : tokensFrom .between "\x7d\n".toList = [.mark '\x7d'] := rfl
  have hvertices := scan_flatMap tokensFrom_vertexStatement graph.vertices
  have hedges := scan_flatMap tokensFrom_edgeStatement graph.edges "\x7d\n".toList
  have hmeaning : (statements graph).flatMap statementTokens =
      graph.vertices.flatMap (fun vertex => statementTokens (ofVertex vertex)) ++
        graph.edges.flatMap (fun edge => statementTokens (ofEdge edge)) := by
    rw [statements, List.flatMap_append, List.flatMap_map, List.flatMap_map]
  unfold document
  rw [List.append_assoc, List.append_assoc, tokensFrom_header, hvertices, hedges, hmeaning, hfooter,
    List.append_assoc]

/-! ## Reading statements -/

variable {following : List Token}

theorem statementsFrom_assignmentTokens (subject : Subject) (attributes : List (String × String))
    (entry : String × String) (following : List Token) :
    statementsFrom (.beforeName subject attributes) (assignmentTokens entry ++ following) =
      statementsFrom (.afterValue subject (attributes ++ [entry])) following :=
  (readFrom_next rfl _).trans ((readFrom_next rfl _).trans (readFrom_next rfl _))

/-- Assignments are added one by one, and the statement is complete with the last. -/
theorem statementsFrom_assignmentsTokens (subject : Subject) (attributes : List (String × String))
    (entry : String × String) (entries : List (String × String)) (following : List Token) :
    statementsFrom (.beforeName subject attributes)
        (assignmentsTokens (entry :: entries) ++ .mark ']' :: .mark ';' :: following) =
      (statementsFrom .start following).map (⟨subject, attributes ++ entry :: entries⟩ :: ·) := by
  induction entries generalizing attributes entry with
  | nil =>
      rw [assignmentsTokens, statementsFrom_assignmentTokens]
      exact (readFrom_next rfl _).trans (readFrom_found rfl _)
  | cons next entries ih =>
      have hnext := ih (attributes ++ [entry]) next
      rw [List.append_assoc] at hnext
      rw [assignmentsTokens, List.append_assoc, statementsFrom_assignmentTokens]
      · exact (readFrom_next rfl _).trans hnext
      · exact List.cons_ne_nil next entries

/-- **The tokens of a statement are read as the statement.** -/
theorem statementsFrom_statementTokens (statement : Statement) (following : List Token) :
    statementsFrom .start (statementTokens statement ++ following) =
      (statementsFrom .start following).map (statement :: ·) := by
  obtain ⟨subject, attributes⟩ := statement
  have hsubject : ∀ tokens, statementsFrom .start (subjectTokens subject ++ tokens) =
      statementsFrom (.afterSubject subject) tokens := by
    intro tokens
    cases subject with
    | vertex id => exact readFrom_next rfl _
    | edge source target =>
        exact (readFrom_next rfl _).trans ((readFrom_next rfl _).trans (readFrom_next rfl _))
  rw [statementTokens, List.append_assoc, List.append_assoc, hsubject]
  cases attributes with
  | nil => cases subject <;> exact readFrom_found rfl _
  | cons entry entries =>
      have hstep : Place.step (.afterSubject subject) (.mark '[') =
          some ([], .beforeName subject []) := by cases subject <;> rfl
      have htokens : attributeTokens (entry :: entries) ++ ([.mark ';'] ++ following) =
          .mark '[' ::
            (assignmentsTokens (entry :: entries) ++ .mark ']' :: .mark ';' :: following) := by
        simp [attributeTokens]
      rw [htokens]
      exact (readFrom_next hstep _).trans
        (statementsFrom_assignmentsTokens subject [] entry entries following)

/-- **The document of a graph is read as its statements.** -/
theorem statements?_dot (graph : GraphRecord) :
    statements? (dot graph) = some (statements graph) := by
  have hread : statementsFrom .start
      ((statements graph).flatMap statementTokens ++ [.mark '\x7d']) =
        (statementsFrom .start [.mark '\x7d']).map ((statements graph).map id ++ ·) :=
    readFrom_flatMap statementsFrom_statementTokens (statements graph) _
  have hend : statementsFrom .start [.mark '\x7d'] = some [] := rfl
  rw [hend, Option.map_some, List.append_nil, List.map_id] at hread
  rw [statements?, dot, String.toList_ofList, tokensFrom_document]
  exact hread

/-- **The DOT document of a graph says what it is to say.** -/
theorem ofDot?_dot (graph : GraphRecord) : Facts.ofDot? (dot graph) = some graph.facts := by
  have hvertices : (statements graph).filterMap (·.vertexFacts?) = graph.facts.vertices := by
    have hedge : ∀ edge, (ofEdge edge).vertexFacts? = none := fun _ => rfl
    have hvertex : ∀ vertex, (ofVertex vertex).vertexFacts? =
        some (vertex.id, vertex.attributes.shown) := fun _ => rfl
    rw [statements, List.filterMap_append, List.filterMap_map, List.filterMap_map]
    simp [hedge, hvertex, GraphRecord.facts]
  have hedges : (statements graph).filterMap (·.edgeFacts?) = graph.facts.edges := by
    have hedge : ∀ edge, (ofEdge edge).edgeFacts? =
        some (edge.source, edge.target, edge.attributes.shown) := fun _ => rfl
    have hvertex : ∀ vertex, (ofVertex vertex).edgeFacts? = none := fun _ => rfl
    rw [statements, List.filterMap_append, List.filterMap_map, List.filterMap_map]
    simp [hedge, hvertex, GraphRecord.facts]
  rw [Facts.ofDot?, statements?_dot, Option.map_some, hvertices, hedges]

/-- Graphs of different sizes have different documents. -/
theorem dot_ne {left right : GraphRecord}
    (hsizes : left.vertices.length ≠ right.vertices.length) : dot left ≠ dot right := by
  intro heq
  have hread := congrArg Facts.ofDot? heq
  rw [ofDot?_dot, ofDot?_dot] at hread
  have hvertices := congrArg Facts.vertices (Option.some.inj hread)
  exact hsizes (by simpa [GraphRecord.facts] using congrArg List.length hvertices)

end Render.Dot

end ProgramGraphs
