import ProgramGraphs.Decimal.Layout

/-!
# JSON values and their text

A value lists the members of its objects in order.  It is written either *compactly*,
without blanks, or *spread* over lines with two blanks for each level; an empty list or
object stays on one line in both.
-/

namespace ProgramGraphs.Json

/-- A JSON value. -/
inductive Value where
  | null
  | bool (value : Bool)
  | integer (value : Int)
  | float (value : Float)
  | string (text : String)
  | list (items : List Value)
  | object (members : List (String × Value))
  deriving Inhabited

namespace Value

/-- A natural number as a value. -/
def natural (n : Nat) : Value := .integer n

/-- A value that may be missing; `null` stands for the missing one. -/
def ofOption {α : Type} (encode : α → Value) : Option α → Value
  | some a => encode a
  | none => .null

/-- An optional text. -/
def optionalString : Option String → Value := ofOption .string

end Value

/-- A hexadecimal digit. -/
def hexDigit (n : Nat) : Char := Nat.digitChar n

/-- The characters that stand for one character inside a quoted text. -/
def escapeChar (c : Char) : List Char :=
  if c = '"' then ['\\', '"']
  else if c = '\\' then ['\\', '\\']
  else if c = '\n' then ['\\', 'n']
  else if c = '\r' then ['\\', 'r']
  else if c = '\t' then ['\\', 't']
  else if c = '\x08' then ['\\', 'b']
  else if c = '\x0c' then ['\\', 'f']
  else if c.toNat < 32 then
    ['\\', 'u', '0', '0', hexDigit (c.toNat / 16), hexDigit (c.toNat % 16)]
  else [c]

/-- A text between quotes. -/
def quoteChars (text : String) : List Char := '"' :: text.toList.flatMap escapeChar ++ ['"']

/-- A text between quotes. -/
def quote (text : String) : String := String.ofList (quoteChars text)

namespace Value

/-- The text of a value that holds no other values, in front of a tail; nothing for a list
or an object. -/
def leafOnto (value : Value) (tail : List Char) : List Char :=
  match value with
  | .null => "null".toList ++ tail
  | .bool value => (if value then "true" else "false").toList ++ tail
  | .integer value => (toString value).toList ++ tail
  | .float value => (Decimal.render Decimal.Layout.json value).toList ++ tail
  | .string text => quoteChars text ++ tail
  | .list _ | .object _ => tail

mutual

/-- The text of a value without blanks, in front of a tail. -/
def compactOnto : Value → List Char → List Char
  | .list items, tail => '[' :: compactItems [] items (']' :: tail)
  | .object members, tail => '\x7b' :: compactMembers [] members ('\x7d' :: tail)
  | leaf, tail => leaf.leafOnto tail

/-- Items in front of a tail, with a comma before each but the first, which follows what is
given. -/
def compactItems (before : List Char) : List Value → List Char → List Char
  | [], tail => tail
  | item :: rest, tail => before ++ item.compactOnto (compactItems [','] rest tail)

/-- Members in front of a tail, with a comma before each but the first, which follows what is
given. -/
def compactMembers (before : List Char) : List (String × Value) → List Char → List Char
  | [], tail => tail
  | (key, value) :: rest, tail =>
    before ++ quoteChars key ++ ':' :: value.compactOnto (compactMembers [','] rest tail)

end

/-- The text of a value without blanks. -/
def compact (value : Value) : String := String.ofList (value.compactOnto [])

/-- A new line and the blanks of a level. -/
def lineBreak (level : Nat) : List Char := '\n' :: List.replicate (2 * level) ' '

mutual

/-- The text of a value spread over lines, in front of a tail; its own first line continues
the line it stands on. -/
def spreadOnto (level : Nat) : Value → List Char → List Char
  | .list [], tail => '[' :: ']' :: tail
  | .list items, tail =>
    '[' :: spreadItems (level + 1) [] items (lineBreak level ++ ']' :: tail)
  | .object [], tail => '\x7b' :: '\x7d' :: tail
  | .object members, tail =>
    '\x7b' :: spreadMembers (level + 1) [] members (lineBreak level ++ '\x7d' :: tail)
  | leaf, tail => leaf.leafOnto tail

/-- Items on lines of their own, in front of a tail. -/
def spreadItems (level : Nat) (before : List Char) : List Value → List Char → List Char
  | [], tail => tail
  | item :: rest, tail =>
    before ++ lineBreak level ++ item.spreadOnto level (spreadItems level [','] rest tail)

/-- Members on lines of their own, in front of a tail. -/
def spreadMembers (level : Nat) (before : List Char) :
    List (String × Value) → List Char → List Char
  | [], tail => tail
  | (key, value) :: rest, tail =>
    before ++ lineBreak level ++ quoteChars key ++ ':' :: ' ' ::
      value.spreadOnto level (spreadMembers level [','] rest tail)

end

/-- The text of a document spread over lines. -/
def pretty (value : Value) : String := String.ofList (value.spreadOnto 0 [])

end Value

end ProgramGraphs.Json
