/-!
# Writing TOML texts

A text is written in the first of several styles that can hold it without escapes: between
double quotes, between single quotes, on several lines between double quotes, on several
lines between single quotes.  Only a text that no style can hold so is written with
escapes.
-/

namespace ProgramGraphs.Toml.Quoted

/-- A control character that no style can hold as it is. -/
def isControl (c : Char) : Bool :=
  (c.toNat < 32 && c != '\t' && c != '\n') || c.toNat == 127

/-- The length of the longest run of a character, where the run at the start is already
`before` characters long. -/
def longestRun (c : Char) (before : Nat) : List Char → Nat
  | [] => before
  | first :: rest =>
    if first = c then longestRun c (before + 1) rest else max before (longestRun c 0 rest)

/-- The ways to write a text. -/
inductive Style where
  /-- Between double quotes, with escapes. -/
  | basic
  /-- Between single quotes. -/
  | literal
  /-- Between three double quotes, with escapes. -/
  | multiBasic
  /-- Between three single quotes. -/
  | multiLiteral
  deriving DecidableEq, Repr

/-- The style in which a text is written. -/
def style (text : List Char) : Style :=
  let newline := text.contains '\n'
  let escapes := text.contains '\\'
  let controls := text.any isControl
  let double := longestRun '"' 0 text
  let single := longestRun '\'' 0 text
  if !controls && !escapes && double = 0 && !newline then .basic
  else if !controls && single = 0 && !newline then .literal
  else if !controls && !escapes && double ≤ 2 then .multiBasic
  else if !controls && single ≤ 2 then .multiLiteral
  else if newline then .multiBasic
  else .basic

/-- An upper-case hexadecimal digit. -/
def hexDigit (n : Nat) : Char := (Nat.digitChar n).toUpper

/-- The escape of a character, where it has one; quotes and line ends are not looked at. -/
def escape? (c : Char) : Option (List Char) :=
  if c = '\x08' then some ['\\', 'b']
  else if c = '\t' then some ['\\', 't']
  else if c = '\x0c' then some ['\\', 'f']
  else if c = '\r' then some ['\\', 'r']
  else if c = '\\' then some ['\\', '\\']
  else if isControl c then
    some ['\\', 'u', '0', '0', hexDigit (c.toNat / 16), hexDigit (c.toNat % 16)]
  else none

/-- A text with escapes.  At most `quotes` quotes may stand side by side without one, and
`run` of them stand directly before the text; line ends stand for themselves where `lines`
says so. -/
def escaped (quotes : Nat) (lines : Bool) (run : Nat) : List Char → List Char
  | [] => []
  | c :: rest =>
    if c = '"' then
      if run < quotes then c :: escaped quotes lines (run + 1) rest
      else '\\' :: c :: escaped quotes lines 0 rest
    else if c = '\n' then
      if lines then c :: escaped quotes lines 0 rest
      else '\\' :: 'n' :: escaped quotes lines 0 rest
    else
      (escape? c).getD [c] ++ escaped quotes lines 0 rest

/-- What is written between the opening quotes of a text of several lines and the text. -/
def opening (text : List Char) : List Char := if text.contains '\n' then ['\n'] else []

/-- A text in a given style. -/
def inStyle (text : List Char) : Style → List Char
  | .basic => '"' :: escaped 0 false 0 text ++ ['"']
  | .literal => '\'' :: text ++ ['\'']
  | .multiBasic => "\"\"\"".toList ++ opening text ++ escaped 2 true 0 text ++ "\"\"\"".toList
  | .multiLiteral => "'''".toList ++ opening text ++ text ++ "'''".toList

/-- A text as it is written. -/
def quote (text : List Char) : List Char := inStyle text (style text)

end ProgramGraphs.Toml.Quoted
