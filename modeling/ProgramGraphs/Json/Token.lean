import ProgramGraphs.Json.Number

/-!
# Tokens of JSON documents

A document is a row of characters; where its bytes form no character, the bytes stand
for themselves.  It is cut into tokens up to the first token that is broken.
-/

namespace ProgramGraphs.Json

/-- What a document consists of. -/
inductive Symbol where
  | char (c : Char)
  /-- A byte that belongs to no character. -/
  | byte (value : UInt8)
  deriving DecidableEq, Repr, Inhabited

/-- A piece of a document. -/
inductive Token where
  | openList
  | closeList
  | openObject
  | closeObject
  | comma
  | colon
  /-- A quoted text, missing when it has no value. -/
  | text (value : Option String)
  /-- A word. -/
  | scalar (value : Node)
  /-- A number, as it is written. -/
  | number (numeral : Numeral)
  /-- A quoted text that is broken. -/
  | brokenText (stop : Stop)
  /-- A word or a number that is broken. -/
  | brokenScalar (stop : Stop)
  /-- A character that starts no token. -/
  | stray
  deriving Inhabited

namespace Token

/-! ## Quoted texts -/

/-- The number of bytes of a symbol. -/
def width : Symbol → Nat
  | .char c => c.utf8Size
  | .byte _ => 1

/-- The value of a hexadecimal digit. -/
def hexValue? : Symbol → Option Nat
  | .char c =>
    if '0' ≤ c ∧ c ≤ '9' then some (c.toNat - '0'.toNat)
    else if 'a' ≤ c ∧ c ≤ 'f' then some (c.toNat - 'a'.toNat + 10)
    else if 'A' ≤ c ∧ c ≤ 'F' then some (c.toNat - 'A'.toNat + 10)
    else none
  | .byte _ => none

/-- The number that four hexadecimal digits stand for.  Fewer than four bytes are a
truncated escape whatever they are. -/
def hexEscape (symbols : List Symbol) : Except Defect Nat :=
  if (symbols.take 4).foldl (fun bytes symbol => bytes + width symbol) 0 < 4 then
    .error .truncated
  else
    match (symbols.take 4).mapM hexValue? with
    | some [a, b, c, d] => .ok (((a * 16 + b) * 16 + c) * 16 + d)
    | _ => .error .malformed

/-- What a backslash and a letter stand for. -/
def simpleEscape? : Char → Option Char
  | '"' => some '"'
  | '\\' => some '\\'
  | '/' => some '/'
  | 'b' => some '\x08'
  | 'f' => some '\x0c'
  | 'n' => some '\n'
  | 'r' => some '\r'
  | 't' => some '\t'
  | _ => none

/-- What an escape by number stands for. -/
inductive Unit16 where
  /-- A character, with the count of symbols after the first four digits that belong to
  the escape as well. -/
  | char (c : Char) (further : Nat)
  /-- Half of a surrogate pair that stands alone: a reader finds it malformed. -/
  | lone
  /-- The document is broken inside the escape. -/
  | broken (defect : Defect)

/-- Completes a first half of a surrogate pair from the symbols after its digits. -/
def completePair (high : Nat) : List Symbol → Unit16
  | [] => .broken .truncated
  | [.char '\\'] => .broken .truncated
  | .char '\\' :: .char 'u' :: rest =>
    match hexEscape rest with
    | .error defect => .broken defect
    | .ok low =>
      if 0xDC00 ≤ low ∧ low ≤ 0xDFFF then
        .char (Char.ofNat (0x10000 + (high - 0xD800) * 0x400 + (low - 0xDC00))) 6
      else .lone
  | _ => .lone

/-- Reads the escape whose four digits come first. -/
def unicodeEscape (symbols : List Symbol) : Unit16 :=
  match hexEscape symbols with
  | .error defect => .broken defect
  | .ok unit =>
    if 0xDC00 ≤ unit ∧ unit ≤ 0xDFFF then .lone
    else if 0xD800 ≤ unit ∧ unit ≤ 0xDBFF then completePair unit (symbols.drop 4)
    else .char (Char.ofNat unit) 0

/-- How far a text could be read. -/
structure TextState where
  /-- The characters so far, the last one first. -/
  reversed : List Char := []
  /-- Half of a surrogate pair stood alone. -/
  lone : Bool := false
  /-- Some bytes formed no character. -/
  undecodable : Bool := false

/-- The token of a text that is broken by a defect. -/
def TextState.broken (state : TextState) (defect : Defect) : Token :=
  .brokenText ⟨if state.lone then .malformed else defect, defect⟩

/-- The token of a text that is closed. -/
def TextState.closed (state : TextState) : Token :=
  .text (if state.lone || state.undecodable then none
    else some (String.ofList state.reversed.reverse))

/-- The state after one more character. -/
def TextState.push (state : TextState) (c : Char) : TextState :=
  { state with reversed := c :: state.reversed }

/-- Reads a text after its opening quote.  The result includes what follows the text. -/
def scanText (state : TextState) (symbols : List Symbol) : Token × List Symbol :=
  match symbols with
  | [] => (state.broken .truncated, [])
  | .byte _ :: rest => scanText { state with undecodable := true } rest
  | .char '"' :: rest => (state.closed, rest)
  | .char '\\' :: [] => (state.broken .truncated, [])
  | .char '\\' :: .char 'u' :: rest =>
    match unicodeEscape rest with
    | .char c further => scanText (state.push c) (rest.drop (4 + further))
    | .lone => scanText { state with lone := true } (rest.drop 4)
    | .broken defect => (state.broken defect, rest)
  | .char '\\' :: .char c :: rest =>
    match simpleEscape? c with
    | some meant => scanText (state.push meant) rest
    | none => (state.broken .malformed, rest)
  | .char '\\' :: .byte _ :: rest => (state.broken .malformed, rest)
  | .char c :: rest =>
    if c.toNat < 32 then (state.broken .malformed, rest) else scanText (state.push c) rest
termination_by symbols.length
decreasing_by all_goals simp_wf <;> omega

/-! ## Numbers -/

/-- The value of a decimal digit. -/
def digitValue? : Symbol → Option Nat
  | .char c => if c.isDigit then some (c.toNat - '0'.toNat) else none
  | .byte _ => none

/-- The leading digits of a row of symbols, and the rest. -/
def scanDigits : List Symbol → List Nat × List Symbol
  | [] => ([], [])
  | symbol :: rest =>
    match digitValue? symbol with
    | some digit =>
      let (digits, after) := scanDigits rest
      (digit :: digits, after)
    | none => ([], symbol :: rest)

/-- The token of a number that lacks a digit: a reader finds that the document ends there,
where it does. -/
def digitMissing (rest : List Symbol) : Token :=
  .brokenScalar ⟨if rest.isEmpty then .truncated else .malformed, .malformed⟩

/-- Reads an exponent after its letter. -/
def scanPower (numeral : Numeral) (symbols : List Symbol) : Token × List Symbol :=
  let (negative, unsigned) := match symbols with
    | .char '+' :: rest => (false, rest)
    | .char '-' :: rest => (true, rest)
    | _ => (false, symbols)
  match scanDigits unsigned with
  | ([], rest) => (digitMissing rest, rest)
  | (digits, rest) => (.number { numeral with exponent := some (negative, digits) }, rest)

/-- Reads what may follow the digits of a number. -/
def scanExponent (numeral : Numeral) (symbols : List Symbol) : Token × List Symbol :=
  match symbols with
  | .char 'e' :: rest => scanPower numeral rest
  | .char 'E' :: rest => scanPower numeral rest
  | _ => (.number numeral, symbols)

/-- Reads what may follow the whole digits of a number. -/
def scanFraction (numeral : Numeral) (symbols : List Symbol) : Token × List Symbol :=
  match symbols with
  | .char '.' :: rest =>
    match scanDigits rest with
    | ([], after) => (digitMissing after, after)
    | (digits, after) => scanExponent { numeral with fraction := some digits } after
  | _ => scanExponent numeral symbols

/-- Goes on with a number whose whole digits are known.  A zero in front of other digits is
malformed. -/
def finishNumber (negative : Bool) (whole : List Nat) (rest : List Symbol) :
    Token × List Symbol :=
  match whole with
  | [] => (digitMissing rest, rest)
  | 0 :: _ :: _ => (.brokenScalar (.both .malformed), rest)
  | _ => scanFraction { negative, whole } rest

/-- Reads a number after its sign or its first digit. -/
def scanNumber (negative : Bool) (first : List Nat) (symbols : List Symbol) :
    Token × List Symbol :=
  let (digits, rest) := scanDigits symbols
  finishNumber negative (first ++ digits) rest

/-! ## Words -/

/-- Reads the rest of a word. -/
def scanWord (value : Node) : List Char → List Symbol → Token × List Symbol
  | [], rest => (.scalar value, rest)
  | _ :: _, [] => (.brokenScalar (.both .truncated), [])
  | c :: expected, symbol :: rest =>
    if symbol = .char c then scanWord value expected rest
    else (.brokenScalar (.both .malformed), rest)

/-! ## Documents -/

/-- Whether a symbol may stand between tokens. -/
def isBlank (symbol : Symbol) : Bool :=
  symbol == .char ' ' || symbol == .char '\n' || symbol == .char '\t' || symbol == .char '\r'

/-- Reads the token that starts with a symbol. -/
def scan (first : Symbol) (rest : List Symbol) : Token × List Symbol :=
  match first with
  | .char '[' => (.openList, rest)
  | .char ']' => (.closeList, rest)
  | .char '\x7b' => (.openObject, rest)
  | .char '\x7d' => (.closeObject, rest)
  | .char ',' => (.comma, rest)
  | .char ':' => (.colon, rest)
  | .char '"' => scanText {} rest
  | .char 'n' => scanWord .null "ull".toList rest
  | .char 't' => scanWord (.bool true) "rue".toList rest
  | .char 'f' => scanWord (.bool false) "alse".toList rest
  | .char '-' => scanNumber true [] rest
  | symbol =>
    match digitValue? symbol with
    | some digit => scanNumber false [digit] rest
    | none => (.stray, rest)

/-! ## Progress -/

theorem scanText_length_le (state : TextState) (symbols : List Symbol) :
    (scanText state symbols).2.length ≤ symbols.length := by
  fun_induction scanText state symbols <;> simp_all <;> omega

theorem scanDigits_length_le (symbols : List Symbol) :
    (scanDigits symbols).2.length ≤ symbols.length := by
  fun_induction scanDigits symbols <;> simp_all
  omega

theorem scanPower_length_le (numeral : Numeral) (symbols : List Symbol) :
    (scanPower numeral symbols).2.length ≤ symbols.length := by
  unfold scanPower
  split
  rename_i negative unsigned sign
  have unsigned_le : unsigned.length ≤ symbols.length := by
    split at sign <;> simp_all
  have digits_le := scanDigits_length_le unsigned
  split <;> simp_all <;> omega

theorem scanExponent_length_le (numeral : Numeral) (symbols : List Symbol) :
    (scanExponent numeral symbols).2.length ≤ symbols.length := by
  unfold scanExponent
  split
  · exact Nat.le_succ_of_le (scanPower_length_le numeral _)
  · exact Nat.le_succ_of_le (scanPower_length_le numeral _)
  · exact Nat.le_refl _

theorem scanFraction_length_le (numeral : Numeral) (symbols : List Symbol) :
    (scanFraction numeral symbols).2.length ≤ symbols.length := by
  unfold scanFraction
  split
  · rename_i rest
    have digits_le := scanDigits_length_le rest
    split
    · simp_all; omega
    · rename_i digits after _ scanned
      have after_le := scanExponent_length_le { numeral with fraction := some digits } after
      simp_all; omega
  · exact scanExponent_length_le numeral symbols

theorem finishNumber_length_le (negative : Bool) (whole : List Nat) (rest : List Symbol) :
    (finishNumber negative whole rest).2.length ≤ rest.length := by
  unfold finishNumber
  split
  · exact Nat.le_refl _
  · exact Nat.le_refl _
  · exact scanFraction_length_le _ rest

theorem scanNumber_length_le (negative : Bool) (first : List Nat) (symbols : List Symbol) :
    (scanNumber negative first symbols).2.length ≤ symbols.length :=
  Nat.le_trans (finishNumber_length_le negative _ _) (scanDigits_length_le symbols)

theorem scanWord_length_le (value : Node) (expected : List Char) (symbols : List Symbol) :
    (scanWord value expected symbols).2.length ≤ symbols.length := by
  fun_induction scanWord value expected symbols <;> simp_all
  omega

/-- Every token takes at least the symbol that it starts with. -/
theorem scan_length_le (first : Symbol) (rest : List Symbol) :
    (scan first rest).2.length ≤ rest.length := by
  unfold scan
  split
  iterate 6 exact Nat.le_refl _
  · exact scanText_length_le _ rest
  iterate 3 exact scanWord_length_le _ _ rest
  · exact scanNumber_length_le _ _ rest
  · split
    · exact scanNumber_length_le _ _ rest
    · exact Nat.le_refl _

/-- Whether reading stops at a token. -/
def breaks : Token → Bool
  | .brokenText _ | .brokenScalar _ | .stray => true
  | _ => false

/-- The tokens of a document up to the first broken one, after those found before, the
last of them first. -/
def scanAll (found : List Token) (symbols : List Symbol) : List Token :=
  match symbols with
  | [] => found.reverse
  | symbol :: rest =>
    if isBlank symbol then scanAll found rest
    else match scanned : scan symbol rest with
      | (token, after) =>
        have after_le : after.length ≤ rest.length := by
          simpa [scanned] using scan_length_le symbol rest
        if token.breaks then (token :: found).reverse else scanAll (token :: found) after
termination_by symbols.length
decreasing_by
  · simp
  · exact Nat.lt_succ_of_le after_le

/-- The tokens of a document. -/
def ofSymbols (symbols : List Symbol) : List Token := scanAll [] symbols

end Token

end ProgramGraphs.Json
