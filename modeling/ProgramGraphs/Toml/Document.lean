import ProgramGraphs.Toml.Moment
import ProgramGraphs.Toml.Number
import ProgramGraphs.Toml.Table
import ProgramGraphs.Toml.Text

/-!
# Reading TOML documents

A document is a row of expressions, each on a line of its own: a key with its value, or
the header of a table that the following keys belong to.  Lists and tables in braces may
be nested, up to a fixed depth, and keys may have a limited number of dots.
-/

namespace ProgramGraphs.Toml

open Scan (char word blanks newline comment lineEnd fill attempt separatedBy takeWhile ending)

/-! ## Keys -/

/-- A character of a key without quotes. -/
def isBareKey (c : Char) : Bool := c.isAlphanum || c == '_' || c == '-'

/-- Takes a key without dots. -/
def simpleKey : Scan String := fun text =>
  match text with
  | '"' :: _ | '\'' :: _ => (Text.single text).map fun (key, rest) => (String.ofList key, rest)
  | _ => (do
      let key ← takeWhile isBareKey
      if key.isEmpty then failure else return String.ofList key : Scan String) text

/-- The parts of a key number fewer than this. -/
def keyLimit : Nat := 80

/-- Takes a key: its path, and its last part. -/
def key : Scan (List String × String) := do
  let parts ← separatedBy (do blanks; let part ← simpleKey; blanks; return part) (char '.')
  match parts.getLast? with
  | some last => if parts.length < keyLimit then return (parts.dropLast, last) else failure
  | none => failure

/-! ## Values -/

/-- Takes an item that holds no other items. -/
def scalar : Scan Item := fun text =>
  match text with
  | '"' :: _ | '\'' :: _ => (Text.any text).map fun (content, rest) =>
      (.string (String.ofList content), rest)
  | 't' :: _ => (do word "true".toList; return .bool true : Scan Item) text
  | 'f' :: _ => (do word "false".toList; return .bool false : Scan Item) text
  | _ => ((do Moment.any; return .moment) <|> (do return .float (← Number.float)) <|>
      (do return .integer (← Number.integer)) : Scan Item) text

/-- Takes a list whose items a scanner takes, after its opening bracket. -/
def listOf (item : Scan Item) : Scan Item := do
  let items ← separatedBy (do fill; let item ← item; fill; return item) (char ',')
  if items.isEmpty then pure () else do
    let _ ← attempt (char ',')
  fill
  char ']'
  return .list items

/-- Takes a key with its value. -/
def keyWithValue (item : Scan Item) : Scan ((List String × String) × Item) := do
  let key ← key
  char '='
  blanks
  let item ← item
  return (key, item)

/-- Takes a table in braces whose items a scanner takes, after its opening brace. -/
def inlineTableOf (item : Scan Item) : Scan Item := do
  let pairs ← separatedBy (do let pair ← keyWithValue item; blanks; return pair) (char ',')
  blanks
  char '\x7d'
  let entries ← pairs.foldlM (fun entries ((path, key), item) =>
    Entries.assign key item path entries) ([] : Entries)
  return .table .inline entries

/-- Takes an item; `room` is the number of lists and tables that may still be opened around
each other. -/
def item : (room : Nat) → Scan Item
  | 0 => fun text =>
    match text with
    | '[' :: _ | '\x7b' :: _ => none
    | _ => scalar text
  | room + 1 => fun text =>
    match text with
    | '[' :: rest => listOf (item room) rest
    | '\x7b' :: rest => inlineTableOf (item room) rest
    | _ => scalar text

/-- The number of lists and tables in braces that may be open around each other. -/
def nestingLimit : Nat := 79

/-! ## Expressions -/

/-- The tables of a document so far, and the path of the table that keys go into. -/
structure Progress where
  root : Entries := []
  current : List String := []

namespace Progress

/-- Sets a key in the current table. -/
def assign (progress : Progress) (path : List String) (key : String) (item : Item) :
    Option Progress := do
  let root ← Entries.within (Entries.assign key item path) progress.current progress.root
  return { progress with root }

/-- Goes on to the table of a header. -/
def enter (progress : Progress) (opening : String → Entries → Option Entries)
    (path : List String) (key : String) : Option Progress := do
  let root ← Entries.within (opening key) path progress.root
  return { root, current := path ++ [key] }

end Progress

/-- Takes a header, after its first bracket. -/
def header (progress : Progress) : Scan Progress := fun text =>
  match text with
  | '[' :: rest => (do
      let (path, key) ← key
      word "]]".toList
      lineEnd
      progress.enter Entries.openRow path key : Scan Progress) rest
  | _ => (do
      let (path, key) ← key
      char ']'
      lineEnd
      progress.enter Entries.openTable path key : Scan Progress) text

/-- Takes a key with its value, and the end of the line. -/
def assignment (progress : Progress) : Scan Progress := do
  let ((path, key), item) ← keyWithValue (item nestingLimit)
  lineEnd
  progress.assign path key item

/-- Takes what starts at the first character of a line that is no blank. -/
def expression (progress : Progress) : Scan Progress := fun text =>
  match text with
  | '#' :: _ => (do comment; newline <|> ending; return progress : Scan Progress) text
  | '[' :: rest => header progress rest
  | '\n' :: _ | '\r' :: _ => (do newline; return progress : Scan Progress) text
  | _ => assignment progress text

/-- Takes expressions to the end of the text, at most as many as the bound says. -/
def expressions : (bound : Nat) → Progress → Scan Progress
  | 0, _ => failure
  | bound + 1, progress => do
    blanks
    match ← attempt ending with
    | some () => return progress
    | none => do
      let progress ← expression progress
      expressions bound progress

/-- The entries of the document that a text holds; nothing when it holds none.  A byte order
mark may come first. -/
def read (text : String) : Option Entries := do
  let content := match text.toList with
    | '\ufeff' :: rest => rest
    | content => content
  let (progress, _) ← expressions (content.length + 1) {} content
  return progress.root

end ProgramGraphs.Toml
