/-!
# Scanning TOML

A scanner takes something off the start of a text, or fails.  This file has the scanners
for single characters and for what may stand between the parts of a document: blanks,
comments and line ends.
-/

namespace ProgramGraphs.Toml

/-- A scanner of values of some type. -/
abbrev Scan (α : Type) := StateT (List Char) Option α

namespace Scan

/-- Takes the longest start whose characters pass a test. -/
def takeWhile (test : Char → Bool) : Scan (List Char) := fun text =>
  some (text.takeWhile test, text.dropWhile test)

/-- Takes one given character. -/
def char (c : Char) : Scan Unit
  | first :: rest => if first = c then some ((), rest) else none
  | [] => none

/-- Takes given characters in order. -/
def word : List Char → Scan Unit
  | [] => pure ()
  | c :: rest => do
    char c
    word rest

/-- Takes one character that passes a test. -/
def satisfy (test : Char → Bool) : Scan Char
  | first :: rest => if test first then some (first, rest) else none
  | [] => none

/-- Takes something when it is there. -/
def attempt {α : Type} (scan : Scan α) : Scan (Option α) := fun text =>
  match scan text with
  | some (value, rest) => some (some value, rest)
  | none => some (none, text)

/-- Succeeds at the end of the text. -/
def ending : Scan Unit
  | [] => some ((), [])
  | _ :: _ => none

/-- Takes items with separators between them, at most as many as the bound says.  A
separator that no item follows is left. -/
def separated {α : Type} (item : Scan α) (separator : Scan Unit) : (bound : Nat) → Scan (List α)
  | 0 => pure []
  | bound + 1 => do
    match ← attempt item with
    | none => return []
    | some first =>
      let rest ← attempt (do
        separator
        let more ← separated item separator bound
        if more.isEmpty then failure else return more)
      return first :: rest.getD []

/-- Takes items with separators between them. -/
def separatedBy {α : Type} (item : Scan α) (separator : Scan Unit) : Scan (List α) := fun text =>
  separated item separator text.length text

/-! ## Between the parts of a document -/

/-- A blank or a tab. -/
def isBlank (c : Char) : Bool := c == ' ' || c == '\t'

/-- A character that may stand for itself: a tab, or one that is not a control character. -/
def isPrintable (c : Char) : Bool := c == '\t' || (32 ≤ c.toNat && c.toNat != 127)

/-- Takes blanks. -/
def blanks : Scan Unit := do
  let _ ← takeWhile isBlank

/-- Takes a line end. -/
def newline : Scan Unit
  | '\n' :: rest => some ((), rest)
  | '\r' :: '\n' :: rest => some ((), rest)
  | _ => none

/-- Takes a comment, up to the end of its line. -/
def comment : Scan Unit := do
  char '#'
  let _ ← takeWhile isPrintable

/-- Takes what may stand at the end of a line, and the line end. -/
def lineEnd : Scan Unit := do
  blanks
  let _ ← attempt comment
  newline <|> ending

/-- Takes blanks, comments and line ends, as many lines as the bound says at most. -/
def fillLines : (bound : Nat) → Scan Unit
  | 0 => blanks
  | bound + 1 => do
    blanks
    match ← attempt (do let _ ← attempt comment; newline) with
    | none => return ()
    | some () => fillLines bound

/-- Takes blanks, comments and line ends. -/
def fill : Scan Unit := fun text => fillLines text.length text

end Scan

end ProgramGraphs.Toml
