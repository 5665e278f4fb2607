import ProgramGraphs.Toml.Scan

/-!
# Quoted texts of TOML documents

A text stands between quotes of one of four kinds.  Between double quotes a backslash
starts an escape; between single quotes every character stands for itself.  Three quotes
of either kind enclose a text of several lines: a line end directly after them is left
out, and up to two quotes may stand inside the text, also at its end.
-/

namespace ProgramGraphs.Toml.Text

open Scan (isBlank isPrintable)

/-- A character that may stand for itself between double quotes. -/
def isBasic (c : Char) : Bool := isPrintable c && c != '"' && c != '\\'

/-- A character that may stand for itself between single quotes. -/
def isLiteral (c : Char) : Bool := isPrintable c && c != '\''

/-- What a backslash and one character stand for. -/
def simpleEscape? : Char → Option Char
  | 'b' => some '\x08'
  | 'f' => some '\x0c'
  | 'n' => some '\n'
  | 'r' => some '\r'
  | 't' => some '\t'
  | '"' => some '"'
  | '\\' => some '\\'
  | _ => none

/-- The value of a hexadecimal digit. -/
def hexValue? (c : Char) : Option Nat :=
  if '0' ≤ c ∧ c ≤ '9' then some (c.toNat - '0'.toNat)
  else if 'a' ≤ c ∧ c ≤ 'f' then some (c.toNat - 'a'.toNat + 10)
  else if 'A' ≤ c ∧ c ≤ 'F' then some (c.toNat - 'A'.toNat + 10)
  else none

/-- The character with a given number. -/
def ofNumber? (number : Nat) : Option Char :=
  if number.isValidChar then some (Char.ofNat number) else none

/-- The character whose number is given by hexadecimal digits. -/
def numbered? (digits : List Char) : Option Char := do
  let values ← digits.mapM hexValue?
  ofNumber? (values.foldl (fun number value => number * 16 + value) 0)

/-- Puts a character in front of a text that was taken. -/
def push (c : Char) (taken : Option (List Char × List Char)) : Option (List Char × List Char) :=
  taken.map fun (text, rest) => (c :: text, rest)

/-- Takes a text between double quotes, after the opening one. -/
def basic : List Char → Option (List Char × List Char)
  | [] => none
  | '"' :: rest => some ([], rest)
  | '\\' :: 'u' :: a :: b :: c :: d :: rest => do
    let meant ← numbered? [a, b, c, d]
    push meant (basic rest)
  | '\\' :: 'U' :: a :: b :: c :: d :: e :: f :: g :: h :: rest => do
    let meant ← numbered? [a, b, c, d, e, f, g, h]
    push meant (basic rest)
  | '\\' :: c :: rest => do
    let meant ← simpleEscape? c
    push meant (basic rest)
  | c :: rest => if isBasic c then push c (basic rest) else none

/-- Whether the rest of a line is blank. -/
def lineIsBlank (text : List Char) : Bool :=
  match text.dropWhile isBlank with
  | '\n' :: _ => true
  | '\r' :: '\n' :: _ => true
  | _ => false

/-- Takes a text between three double quotes, after the opening ones.  A backslash at the
end of a line leaves out the line end and all blanks and line ends that follow; `skipping`
says that this is going on. -/
def multiBasic (skipping : Bool) : List Char → Option (List Char × List Char)
  | [] => none
  | '"' :: '"' :: '"' :: '"' :: '"' :: rest => some (['"', '"'], rest)
  | '"' :: '"' :: '"' :: '"' :: rest => some (['"'], rest)
  | '"' :: '"' :: '"' :: rest => some ([], rest)
  | '"' :: rest => push '"' (multiBasic false rest)
  | '\n' :: rest => if skipping then multiBasic true rest else push '\n' (multiBasic false rest)
  | '\r' :: '\n' :: rest =>
    if skipping then multiBasic true rest else push '\n' (multiBasic false rest)
  | '\\' :: 'u' :: a :: b :: c :: d :: rest => do
    let meant ← numbered? [a, b, c, d]
    push meant (multiBasic false rest)
  | '\\' :: 'U' :: a :: b :: c :: d :: e :: f :: g :: h :: rest => do
    let meant ← numbered? [a, b, c, d, e, f, g, h]
    push meant (multiBasic false rest)
  | '\\' :: c :: rest =>
    match simpleEscape? c with
    | some meant => push meant (multiBasic false rest)
    | none => if lineIsBlank (c :: rest) then multiBasic true (c :: rest) else none
  | c :: rest =>
    if skipping && isBlank c then multiBasic true rest
    else if isBasic c then push c (multiBasic false rest)
    else none

/-- Takes a text between single quotes, after the opening one. -/
def literal : List Char → Option (List Char × List Char)
  | [] => none
  | '\'' :: rest => some ([], rest)
  | c :: rest => if isLiteral c then push c (literal rest) else none

/-- Takes a text between three single quotes, after the opening ones. -/
def multiLiteral : List Char → Option (List Char × List Char)
  | [] => none
  | '\'' :: '\'' :: '\'' :: '\'' :: '\'' :: rest => some (['\'', '\''], rest)
  | '\'' :: '\'' :: '\'' :: '\'' :: rest => some (['\''], rest)
  | '\'' :: '\'' :: '\'' :: rest => some ([], rest)
  | '\'' :: rest => push '\'' (multiLiteral rest)
  | '\n' :: rest => push '\n' (multiLiteral rest)
  | '\r' :: '\n' :: rest => push '\n' (multiLiteral rest)
  | c :: rest => if isLiteral c then push c (multiLiteral rest) else none

/-- Leaves out a line end at the start of a text. -/
def trimNewline : List Char → List Char
  | '\n' :: rest => rest
  | '\r' :: '\n' :: rest => rest
  | text => text

/-- Takes a text of one line. -/
def single : Scan (List Char)
  | '"' :: rest => basic rest
  | '\'' :: rest => literal rest
  | _ => none

/-- Takes a text of any kind. -/
def any : Scan (List Char)
  | '"' :: '"' :: '"' :: rest => multiBasic false (trimNewline rest)
  | '\'' :: '\'' :: '\'' :: rest => multiLiteral (trimNewline rest)
  | text => single text

end ProgramGraphs.Toml.Text
