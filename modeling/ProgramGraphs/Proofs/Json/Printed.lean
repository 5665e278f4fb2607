import ProgramGraphs.Json.Reader
import ProgramGraphs.Proofs.Json.Numerals

/-!
# Reading a printed value

A value that is printed is cut into its own tokens (`ofSymbols_laidOnto`), and these are
read as the value (`read_tokens`), so that a printed document is read as the value it was
printed from (`ofTextBy_pretty`, `ofTextBy_compact`).  The two ways to print differ in the
blanks between the tokens alone, so the blanks are a parameter.  How numbers become
values is a parameter of the reader, since readers differ in how precisely they round.

Both proofs follow the value: an item or a member is a value with a separator in
front of it, and the row of those that are left is the induction.
-/

namespace ProgramGraphs.Json

open Decimal (IsWhole)

/-! ## Values and their tokens -/

namespace Value

mutual

/-- Whether all doubles in a value are whole numbers. -/
def FloatsWhole : Value → Prop
  | .float value => IsWhole value
  | .list items => ItemsWhole items
  | .object members => MembersWhole members
  | _ => True

/-- The same of all items of a list. -/
def ItemsWhole : List Value → Prop
  | [] => True
  | item :: rest => item.FloatsWhole ∧ ItemsWhole rest

/-- The same of the values of all members. -/
def MembersWhole : List (String × Value) → Prop
  | [] => True
  | (_, value) :: rest => value.FloatsWhole ∧ MembersWhole rest

end

mutual

/-- The tokens of a value. -/
def tokens : Value → List Token
  | .null => [.scalar .null]
  | .bool value => [.scalar (.bool value)]
  | .integer value => [.number (.ofInt value)]
  | .float value => [.number (.ofFloat value)]
  | .string text => [.text (some text)]
  | .list items => .openList :: itemTokens [] items ++ [.closeList]
  | .object members => .openObject :: memberTokens [] members ++ [.closeObject]

/-- The tokens of items, with a comma before each but the first, which follows what
is given. -/
def itemTokens (before : List Token) : List Value → List Token
  | [] => []
  | item :: rest => before ++ item.tokens ++ itemTokens [.comma] rest

/-- The tokens of members, with a comma before each but the first, which follows
what is given. -/
def memberTokens (before : List Token) : List (String × Value) → List Token
  | [] => []
  | (key, value) :: rest =>
    before ++ .text (some key) :: .colon :: value.tokens ++ memberTokens [.comma] rest

end

mutual

/-- The value as it is read when numerals stand for given values. -/
def node (val : Numeral → Node) : Value → Node
  | .null => .null
  | .bool value => .bool value
  | .integer value => val (.ofInt value)
  | .float value => val (.ofFloat value)
  | .string text => .string text
  | .list items => .list (itemNodes val items)
  | .object members => .object (memberNodes val members)

/-- The items of a list, as they are read. -/
def itemNodes (val : Numeral → Node) : List Value → Items
  | [] => .close
  | item :: rest => .item (item.node val) (itemNodes val rest)

/-- The members of an object, as they are read. -/
def memberNodes (val : Numeral → Node) : List (String × Value) → Members
  | [] => .close
  | (key, value) :: rest => .member (some key) (value.node val) (memberNodes val rest)

end

end Value

theorem itemsWhole_iff (items : List Value) :
    Value.ItemsWhole items ↔ ∀ item ∈ items, item.FloatsWhole := by
  induction items with
  | nil => simp [Value.ItemsWhole]
  | cons item items ih => rw [Value.ItemsWhole, ih, List.forall_mem_cons]

theorem membersWhole_iff (members : List (String × Value)) :
    Value.MembersWhole members ↔ ∀ member ∈ members, member.2.FloatsWhole := by
  induction members with
  | nil => simp [Value.MembersWhole]
  | cons member members ih => rw [Value.MembersWhole, ih, List.forall_mem_cons]

/-! ## The blanks of a text -/

/-- What stands between the tokens of a text: in front of the items of a level, and
between a key and its value. -/
structure Blanks where
  line : Nat → List Char
  gap : List Char
  line_blank : ∀ level, ∀ c ∈ line level, Token.isBlank (.char c) = true
  gap_blank : ∀ c ∈ gap, Token.isBlank (.char c) = true

namespace Blanks

/-- No blanks. -/
def compact : Blanks where
  line _ := []
  gap := []
  line_blank _ := List.forall_mem_nil _
  gap_blank := List.forall_mem_nil _

/-- The blanks of a text that is spread over lines. -/
def spread : Blanks where
  line := Value.lineBreak
  gap := [' ']
  line_blank level c hc := by
    rcases List.mem_cons.mp hc with rfl | hc
    · rfl
    · rw [List.eq_of_mem_replicate hc]
      rfl
  gap_blank c hc := by
    rw [List.mem_singleton.mp hc]
    rfl

/-- What stands in front of the end of a list or object. -/
def ending (blanks : Blanks) (level : Nat) (empty : Bool) : List Char :=
  bif empty then [] else blanks.line level

theorem ending_compact (level : Nat) (empty : Bool) : compact.ending level empty = [] := by
  cases empty <;> rfl

theorem ending_blank (blanks : Blanks) (level : Nat) (empty : Bool) :
    ∀ c ∈ blanks.ending level empty, Token.isBlank (.char c) = true := by
  cases empty with
  | true => exact List.forall_mem_nil _
  | false => exact blanks.line_blank level

end Blanks

namespace Value

mutual

/-- The text of a value with given blanks, in front of a tail. -/
def laidOnto (blanks : Blanks) (level : Nat) : Value → List Char → List Char
  | .list items, tail =>
    '[' :: laidItems blanks (level + 1) [] items (blanks.ending level items.isEmpty ++ ']' :: tail)
  | .object members, tail =>
    '\x7b' :: laidMembers blanks (level + 1) [] members
      (blanks.ending level members.isEmpty ++ '\x7d' :: tail)
  | leaf, tail => leaf.leafOnto tail

/-- The items of a list with the text before the first of them; commas stand before the
others. -/
def laidItems (blanks : Blanks) (level : Nat) (before : List Char) :
    List Value → List Char → List Char
  | [], tail => tail
  | item :: rest, tail =>
    before ++ blanks.line level ++
      item.laidOnto blanks level (laidItems blanks level [','] rest tail)

/-- The members of an object with the text before the first of them; commas stand before
the others. -/
def laidMembers (blanks : Blanks) (level : Nat) (before : List Char) :
    List (String × Value) → List Char → List Char
  | [], tail => tail
  | (key, value) :: rest, tail =>
    before ++ blanks.line level ++ quoteChars key ++ ':' ::
      (blanks.gap ++ value.laidOnto blanks level (laidMembers blanks level [','] rest tail))

end

mutual

-- a text does not depend on what follows it
theorem laidOnto_append (blanks : Blanks) (level : Nat) (value : Value) (tail more : List Char) :
    value.laidOnto blanks level (tail ++ more) = value.laidOnto blanks level tail ++ more := by
  match value with
  | .null | .bool _ | .integer _ | .float _ | .string _ =>
      simp only [laidOnto, leafOnto, List.append_assoc]
  | .list items =>
      have hitems := laidItems_append blanks (level + 1) [] items
        (blanks.ending level items.isEmpty ++ ']' :: tail) more
      rw [laidOnto, laidOnto, List.cons_append, ← hitems, List.append_assoc, List.cons_append]
  | .object members =>
      have hmembers := laidMembers_append blanks (level + 1) [] members
        (blanks.ending level members.isEmpty ++ '\x7d' :: tail) more
      rw [laidOnto, laidOnto, List.cons_append, ← hmembers, List.append_assoc, List.cons_append]

theorem laidItems_append (blanks : Blanks) (level : Nat) (before : List Char) (items : List Value)
    (tail more : List Char) :
    laidItems blanks level before items (tail ++ more) =
      laidItems blanks level before items tail ++ more := by
  match items with
  | [] => rfl
  | item :: items =>
      rw [laidItems, laidItems, laidItems_append blanks level [','] items,
        laidOnto_append blanks level item, ← List.append_assoc]

theorem laidMembers_append (blanks : Blanks) (level : Nat) (before : List Char)
    (members : List (String × Value)) (tail more : List Char) :
    laidMembers blanks level before members (tail ++ more) =
      laidMembers blanks level before members tail ++ more := by
  match members with
  | [] => rfl
  | (key, value) :: members =>
      rw [laidMembers, laidMembers, laidMembers_append blanks level [','] members,
        laidOnto_append blanks level value]
      simp only [List.append_assoc, List.cons_append]

end

mutual

theorem spreadOnto_eq (level : Nat) (value : Value) (tail : List Char) :
    value.spreadOnto level tail = value.laidOnto .spread level tail := by
  match value with
  | .null | .bool _ | .integer _ | .float _ | .string _ => rfl
  | .list [] | .object [] => rfl
  | .list (item :: items) =>
      exact congrArg ('[' :: ·) (spreadItems_eq (level + 1) [] (item :: items) _)
  | .object (entry :: members) =>
      exact congrArg ('\x7b' :: ·) (spreadMembers_eq (level + 1) [] (entry :: members) _)

theorem spreadItems_eq (level : Nat) (before : List Char) (items : List Value)
    (tail : List Char) :
    spreadItems level before items tail = laidItems .spread level before items tail := by
  match items with
  | [] => rfl
  | item :: items =>
      rw [spreadItems, laidItems, spreadOnto_eq level item, spreadItems_eq level [','] items]
      rfl

theorem spreadMembers_eq (level : Nat) (before : List Char) (members : List (String × Value))
    (tail : List Char) :
    spreadMembers level before members tail = laidMembers .spread level before members tail := by
  match members with
  | [] => rfl
  | (key, value) :: members =>
      rw [spreadMembers, laidMembers, spreadOnto_eq level value,
        spreadMembers_eq level [','] members]
      rfl

end

mutual

-- without blanks the level does not matter
theorem compactOnto_eq (level : Nat) (value : Value) (tail : List Char) :
    value.compactOnto tail = value.laidOnto .compact level tail := by
  match value with
  | .null | .bool _ | .integer _ | .float _ | .string _ => rfl
  | .list items =>
      rw [compactOnto, laidOnto, Blanks.ending_compact, compactItems_eq (level + 1) [] items]
      rfl
  | .object members =>
      rw [compactOnto, laidOnto, Blanks.ending_compact, compactMembers_eq (level + 1) [] members]
      rfl

theorem compactItems_eq (level : Nat) (before : List Char) (items : List Value)
    (tail : List Char) :
    compactItems before items tail = laidItems .compact level before items tail := by
  match items with
  | [] => rfl
  | item :: items =>
      rw [compactItems, laidItems, compactOnto_eq level item, compactItems_eq level [','] items,
        show Blanks.compact.line level = [] from rfl, List.append_nil]

theorem compactMembers_eq (level : Nat) (before : List Char) (members : List (String × Value))
    (tail : List Char) :
    compactMembers before members tail = laidMembers .compact level before members tail := by
  match members with
  | [] => rfl
  | (key, value) :: members =>
      rw [compactMembers, laidMembers, compactOnto_eq level value,
        compactMembers_eq level [','] members, show Blanks.compact.line level = [] from rfl,
        List.append_nil]
      rfl

end

end Value

/-! ## From text to tokens -/

namespace Token

variable {rest : List Symbol}

theorem endsNumber_nil : EndsNumber [] := by
  refine ⟨?_, ?_, ?_⟩ <;> rintro symbol ⟨⟩

theorem endsNumber_cons {c : Char}
    (hc : c ∈ [',', ']', '\x7d', ' ', '\n', '\t', '\r']) : EndsNumber (.char c :: rest) := by
  simp only [List.mem_cons, List.not_mem_nil, or_false] at hc
  refine ⟨?_, ?_, ?_⟩ <;> intro symbol hsymbol <;> obtain rfl := Option.some.inj hsymbol <;>
    rcases hc with rfl | rfl | rfl | rfl | rfl | rfl | rfl <;> decide

theorem ofSymbols_blanks {blanks : List Char} (hblank : ∀ c ∈ blanks, isBlank (.char c) = true) :
    ofSymbols (symbolsOf blanks ++ rest) = ofSymbols rest := by
  induction blanks with
  | nil => rfl
  | cons c blanks ih =>
      rw [symbolsOf_cons, List.cons_append, ofSymbols_blank (hblank c (List.mem_cons_self ..)),
        ih fun c hc => hblank c (List.mem_cons_of_mem _ hc)]

theorem endsNumber_blanks {blanks : List Char} (hblank : ∀ c ∈ blanks, isBlank (.char c) = true)
    (hends : EndsNumber rest) : EndsNumber (symbolsOf blanks ++ rest) := by
  cases blanks with
  | nil => exact hends
  | cons c blanks =>
      have hc := hblank c (List.mem_cons_self ..)
      apply endsNumber_cons
      simp only [isBlank, Bool.or_eq_true, beq_iff_eq, Symbol.char.injEq] at hc
      simp only [List.mem_cons]
      tauto

theorem scanWord_append (value : Node) (word : List Char) :
    scanWord value word (symbolsOf word ++ rest) = (.scalar value, rest) := by
  induction word with
  | nil => cases rest <;> rfl
  | cons c word ih =>
      rw [symbolsOf_cons, List.cons_append, scanWord, if_pos rfl, ih]

/-- The text of a value that holds no other values is its one token. -/
theorem ofSymbols_leafOnto {value : Value} {tail : List Char} (hwhole : value.FloatsWhole)
    (hends : EndsNumber (symbolsOf tail)) (hleaf : ∀ items, value ≠ .list items)
    (hleaf' : ∀ members, value ≠ .object members) :
    ofSymbols (symbolsOf (value.leafOnto tail)) = value.tokens ++ ofSymbols (symbolsOf tail) := by
  cases value with
  | null => exact ofSymbols_token rfl (scanWord_append .null "ull".toList) rfl
  | bool value =>
      cases value with
      | false => exact ofSymbols_token rfl (scanWord_append (.bool false) "alse".toList) rfl
      | true => exact ofSymbols_token rfl (scanWord_append (.bool true) "rue".toList) rfl
  | integer value =>
      rw [Value.leafOnto, symbolsOf_append]
      exact ofSymbols_integer value hends
  | float value =>
      rw [Value.leafOnto, symbolsOf_append]
      exact ofSymbols_float hwhole hends
  | string text =>
      rw [Value.leafOnto, symbolsOf_append]
      exact ofSymbols_quoteChars text _
  | list items => exact absurd rfl (hleaf items)
  | object members => exact absurd rfl (hleaf' members)

/-- Some text in front of an item is some tokens in front of it. -/
def Reads (before : List Char) (tokens : List Token) : Prop :=
  ∀ rest, ofSymbols (symbolsOf before ++ rest) = tokens ++ ofSymbols rest

theorem reads_nothing : Reads [] [] := fun _ => rfl

theorem reads_comma : Reads [','] [.comma] := fun _ => ofSymbols_token rfl rfl rfl

section Laid

variable (blanks : Blanks) (level : Nat) {tail : List Char}

theorem ofSymbols_line : ofSymbols (symbolsOf (blanks.line level) ++ rest) = ofSymbols rest :=
  ofSymbols_blanks (blanks.line_blank level)

theorem ofSymbols_ending (empty : Bool) :
    ofSymbols (symbolsOf (blanks.ending level empty) ++ rest) = ofSymbols rest :=
  ofSymbols_blanks (blanks.ending_blank level empty)

theorem endsNumber_ending (empty : Bool) {c : Char} (hc : c = ']' ∨ c = '\x7d') :
    EndsNumber (symbolsOf (blanks.ending level empty ++ c :: tail)) := by
  rw [symbolsOf_append]
  apply endsNumber_blanks (blanks.ending_blank level empty)
  rcases hc with rfl | rfl <;> exact endsNumber_cons (by decide)

theorem endsNumber_laidItems (items : List Value) (hends : EndsNumber (symbolsOf tail)) :
    EndsNumber (symbolsOf (Value.laidItems blanks level [','] items tail)) := by
  cases items with
  | nil => exact hends
  | cons item items => exact endsNumber_cons (by decide)

theorem endsNumber_laidMembers (members : List (String × Value))
    (hends : EndsNumber (symbolsOf tail)) :
    EndsNumber (symbolsOf (Value.laidMembers blanks level [','] members tail)) := by
  cases members with
  | nil => exact hends
  | cons entry members => exact endsNumber_cons (by decide)

end Laid

mutual

/-- **The text of a value is cut into its tokens**, with whatever follows. -/
theorem ofSymbols_laidOnto (blanks : Blanks) (level : Nat) (value : Value) (tail : List Char)
    (hwhole : value.FloatsWhole) (hends : EndsNumber (symbolsOf tail)) :
    ofSymbols (symbolsOf (value.laidOnto blanks level tail)) =
      value.tokens ++ ofSymbols (symbolsOf tail) := by
  match value with
  | .null | .bool _ | .integer _ | .float _ | .string _ =>
      exact ofSymbols_leafOnto hwhole hends (fun _ h => by cases h) (fun _ h => by cases h)
  | .list items =>
      have hclose : ofSymbols (symbolsOf (blanks.ending level items.isEmpty ++ ']' :: tail)) =
          .closeList :: ofSymbols (symbolsOf tail) := by
        rw [symbolsOf_append, ofSymbols_ending]
        exact ofSymbols_token rfl rfl rfl
      have hitems := ofSymbols_laidItems blanks (level + 1) items
        (blanks.ending level items.isEmpty ++ ']' :: tail) reads_nothing hwhole
        (endsNumber_ending blanks level _ (.inl rfl))
      have hopen : ∀ text, ofSymbols (symbolsOf ('[' :: text)) =
          .openList :: ofSymbols (symbolsOf text) := fun text => ofSymbols_token rfl rfl rfl
      rw [Value.laidOnto, hopen, hitems, hclose, Value.tokens]
      simp only [List.cons_append, List.append_assoc, List.nil_append]
  | .object members =>
      have hclose : ofSymbols (symbolsOf (blanks.ending level members.isEmpty ++ '\x7d' :: tail)) =
          .closeObject :: ofSymbols (symbolsOf tail) := by
        rw [symbolsOf_append, ofSymbols_ending]
        exact ofSymbols_token rfl rfl rfl
      have hmembers := ofSymbols_laidMembers blanks (level + 1) members
        (blanks.ending level members.isEmpty ++ '\x7d' :: tail) reads_nothing hwhole
        (endsNumber_ending blanks level _ (.inr rfl))
      have hopen : ∀ text, ofSymbols (symbolsOf ('\x7b' :: text)) =
          .openObject :: ofSymbols (symbolsOf text) := fun text => ofSymbols_token rfl rfl rfl
      rw [Value.laidOnto, hopen, hmembers, hclose, Value.tokens]
      simp only [List.cons_append, List.append_assoc, List.nil_append]

theorem ofSymbols_laidItems (blanks : Blanks) (level : Nat) (items : List Value)
    (tail : List Char) {before : List Char} {tokens : List Token} (hbefore : Reads before tokens)
    (hwhole : Value.ItemsWhole items) (hends : EndsNumber (symbolsOf tail)) :
    ofSymbols (symbolsOf (Value.laidItems blanks level before items tail)) =
      Value.itemTokens tokens items ++ ofSymbols (symbolsOf tail) := by
  match items with
  | [] => rfl
  | item :: items =>
      rw [Value.laidItems, symbolsOf_append, symbolsOf_append, List.append_assoc, hbefore,
        ofSymbols_line, ofSymbols_laidOnto blanks level item _ hwhole.1
          (endsNumber_laidItems blanks level items hends),
        ofSymbols_laidItems blanks level items tail reads_comma hwhole.2 hends, Value.itemTokens]
      simp only [List.append_assoc]

theorem ofSymbols_laidMembers (blanks : Blanks) (level : Nat) (members : List (String × Value))
    (tail : List Char) {before : List Char} {tokens : List Token} (hbefore : Reads before tokens)
    (hwhole : Value.MembersWhole members) (hends : EndsNumber (symbolsOf tail)) :
    ofSymbols (symbolsOf (Value.laidMembers blanks level before members tail)) =
      Value.memberTokens tokens members ++ ofSymbols (symbolsOf tail) := by
  match members with
  | [] => rfl
  | (key, value) :: members =>
      have hcolon : ∀ text, ofSymbols (symbolsOf (':' :: (blanks.gap ++ text))) =
          .colon :: ofSymbols (symbolsOf text) := by
        intro text
        have hgap : ofSymbols (symbolsOf (blanks.gap ++ text)) = ofSymbols (symbolsOf text) := by
          rw [symbolsOf_append]
          exact ofSymbols_blanks blanks.gap_blank
        exact (ofSymbols_token rfl rfl rfl).trans (congrArg _ hgap)
      rw [Value.laidMembers, symbolsOf_append, symbolsOf_append, symbolsOf_append,
        List.append_assoc, List.append_assoc, hbefore, ofSymbols_line, ofSymbols_quoteChars,
        hcolon, ofSymbols_laidOnto blanks level value _ hwhole.1
          (endsNumber_laidMembers blanks level members hends),
        ofSymbols_laidMembers blanks level members tail reads_comma hwhole.2 hends,
        Value.memberTokens]
      simp only [List.append_assoc, List.cons_append]

end

end Token

/-! ## From tokens to values -/

/-- The token whose number has been given its value. -/
def Token.valued (val : Numeral → Node) : Token → Token
  | .number numeral => .scalar (val numeral)
  | token => token

namespace Document

variable {val : Numeral → Node}

/-- The document that a text holds when numerals stand for given values. -/
def ofTextBy (val : Numeral → Node) (text : String) : Document :=
  read .value [] ((Token.ofSymbols (Token.symbolsOf text.toList)).map (Token.valued val))

theorem step_valued (expected : Expectation) (frames : List Frame) (token : Token) :
    step expected frames (token.valued Numeral.toNode) = step expected frames token := by
  cases token <;> try rfl
  cases expected <;> rfl

/-- Rounding numbers in the usual way gives the usual reader. -/
theorem ofTextBy_toNode (text : String) : ofTextBy Numeral.toNode text = ofText text := by
  have hread : ∀ tokens expected frames,
      read expected frames (tokens.map (Token.valued Numeral.toNode)) =
        read expected frames tokens := by
    intro tokens
    induction tokens with
    | nil => exact fun _ _ => rfl
    | cons token tokens ih =>
        intro expected frames
        simp only [List.map_cons, read, step_valued, ih, List.isEmpty_map]
  exact hread _ _ _

/-- What is read when a value is complete and goes to where it is expected. -/
def proceed (value : Node) (frames : List Frame) (rest : List Token) : Document :=
  match Frame.place value frames with
  | some frames => read .commaOrEnd frames rest
  | none => ⟨value, !rest.isEmpty⟩

/-- The first item of a list is read like any other value. -/
theorem read_itemOrEnd (value : Value) (frames : List Frame) (rest : List Token) :
    read .itemOrEnd frames (value.tokens.map (Token.valued val) ++ rest) =
      read .value frames (value.tokens.map (Token.valued val) ++ rest) := by
  cases value <;> rfl

mutual

/-- **The tokens of a value are read as the value**, whatever follows. -/
theorem read_tokens (value : Value) (frames : List Frame) (rest : List Token) :
    read .value frames (value.tokens.map (Token.valued val) ++ rest) =
      proceed (value.node val) frames rest := by
  match value with
  -- a value without parts is one token
  | .null | .bool _ | .integer _ | .float _ | .string _ => rfl
  | .list [] => rfl
  | .list (item :: items) =>
      have hfirst := read_tokens item (.list [] :: frames)
        ((Value.itemTokens [.comma] items).map (Token.valued val) ++ .closeList :: rest)
      have hitems := read_itemTokens items [item.node val] frames rest
      have hopen : (Value.list (item :: items)).tokens.map (Token.valued val) ++ rest =
          .openList :: (item.tokens.map (Token.valued val) ++
            ((Value.itemTokens [.comma] items).map (Token.valued val) ++ .closeList :: rest)) := by
        simp [Value.tokens, Value.itemTokens, Token.valued]
      rw [hopen]
      exact (read_itemOrEnd item ..).trans (hfirst.trans hitems)
  | .object [] => rfl
  | .object ((key, value) :: members) =>
      have hfirst := read_tokens value (.member [] (some key) :: frames)
        ((Value.memberTokens [.comma] members).map (Token.valued val) ++ .closeObject :: rest)
      have hmembers := read_memberTokens members [(some key, value.node val)] frames rest
      have hopen : (Value.object ((key, value) :: members)).tokens.map (Token.valued val) ++ rest =
          .openObject :: .text (some key) :: .colon :: (value.tokens.map (Token.valued val) ++
            ((Value.memberTokens [.comma] members).map (Token.valued val) ++
              .closeObject :: rest)) := by
        simp [Value.tokens, Value.memberTokens, Token.valued]
      rw [hopen]
      exact hfirst.trans hmembers

theorem read_itemTokens (items : List Value) (earlier : List Node) (outer : List Frame)
    (rest : List Token) :
    read .commaOrEnd (.list earlier :: outer)
        ((Value.itemTokens [.comma] items).map (Token.valued val) ++ .closeList :: rest) =
      proceed (.list ((Value.itemNodes val items).prepend earlier)) outer rest := by
  match items with
  | [] => rfl
  | item :: items =>
      have hitem := read_tokens item (.list earlier :: outer)
        ((Value.itemTokens [.comma] items).map (Token.valued val) ++ .closeList :: rest)
      have hitems := read_itemTokens items (item.node val :: earlier) outer rest
      have hcomma : (Value.itemTokens [.comma] (item :: items)).map (Token.valued val) ++
          .closeList :: rest = .comma :: (item.tokens.map (Token.valued val) ++
            ((Value.itemTokens [.comma] items).map (Token.valued val) ++ .closeList :: rest)) := by
        simp [Value.itemTokens, Token.valued]
      rw [hcomma]
      exact hitem.trans hitems

theorem read_memberTokens (members : List (String × Value))
    (earlier : List (Option String × Node)) (outer : List Frame) (rest : List Token) :
    read .commaOrEnd (.object earlier :: outer)
        ((Value.memberTokens [.comma] members).map (Token.valued val) ++ .closeObject :: rest) =
      proceed (.object ((Value.memberNodes val members).prepend earlier)) outer rest := by
  match members with
  | [] => rfl
  | (key, value) :: members =>
      have hvalue := read_tokens value (.member earlier (some key) :: outer)
        ((Value.memberTokens [.comma] members).map (Token.valued val) ++ .closeObject :: rest)
      have hmembers := read_memberTokens members ((some key, value.node val) :: earlier) outer rest
      have hcomma :
          (Value.memberTokens [.comma] ((key, value) :: members)).map (Token.valued val) ++
            .closeObject :: rest = .comma :: .text (some key) :: .colon ::
            (value.tokens.map (Token.valued val) ++
              ((Value.memberTokens [.comma] members).map (Token.valued val) ++
                .closeObject :: rest)) := by
        simp [Value.memberTokens, Token.valued]
      rw [hcomma]
      exact hvalue.trans hmembers

end

theorem ofTextBy_laidOnto (blanks : Blanks) (level : Nat) {value : Value}
    (hwhole : value.FloatsWhole) :
    ofTextBy val (String.ofList (value.laidOnto blanks level [])) = ⟨value.node val, false⟩ := by
  have htokens := Token.ofSymbols_laidOnto blanks level value [] hwhole Token.endsNumber_nil
  have hnothing : Token.ofSymbols (Token.symbolsOf []) = [] := by
    rw [Token.ofSymbols, Token.symbolsOf, List.map_nil, Token.scanAll]
    rfl
  rw [ofTextBy, String.toList_ofList, htokens, hnothing, List.map_append]
  exact read_tokens value [] []

/-- **A printed document is read as the value it was printed from**, with nothing
after it. -/
theorem ofTextBy_pretty {value : Value} (hwhole : value.FloatsWhole) :
    ofTextBy val value.pretty = ⟨value.node val, false⟩ := by
  rw [Value.pretty, Value.spreadOnto_eq]
  exact ofTextBy_laidOnto .spread 0 hwhole

theorem ofTextBy_compact {value : Value} (hwhole : value.FloatsWhole) :
    ofTextBy val value.compact = ⟨value.node val, false⟩ := by
  rw [Value.compact, Value.compactOnto_eq 0]
  exact ofTextBy_laidOnto .compact 0 hwhole

end Document

end ProgramGraphs.Json
