import ProgramGraphs.Reading.Mismatch

/-!
# TOML items

What stands under a key of a TOML document.  A table remembers how it came about, which
decides whether later parts of the document may add to it.
-/

namespace ProgramGraphs.Toml

/-- How a table came about. -/
inductive Origin where
  /-- A header that passes through the table, and names one inside it. -/
  | implied
  /-- A key with dots. -/
  | dotted
  /-- A header of its own. -/
  | header
  /-- Braces. -/
  | inline
  deriving DecidableEq, Repr, Inhabited

/-- What stands under a key. -/
inductive Item where
  | string (text : String)
  | integer (value : Int)
  | float (value : Float)
  | bool (value : Bool)
  /-- A date, a time of day, or both.  Which one is of no interest. -/
  | moment
  | list (items : List Item)
  | table (origin : Origin) (entries : List (String × Item))
  /-- The tables of a header in double brackets, in order. -/
  | tables (rows : List (List (String × Item)))
  deriving Inhabited

/-- The entries of a table, in order. -/
abbrev Entries := List (String × Item)

namespace Item

/-- How an item is reported that is not of the wanted kind.  A moment counts as a map. -/
def found : Item → Reading.Found
  | .string text => .string text
  | .integer value => .integer value
  | .float value => .float value
  | .bool value => .bool value
  | .moment | .table _ _ => .map
  | .list _ | .tables _ => .sequence

/-- The name of an item's kind. -/
def kind : Item → String
  | .string _ => "string"
  | .integer _ => "integer"
  | .float _ => "float"
  | .bool _ => "boolean"
  | .moment => "datetime"
  | .list _ => "array"
  | .table .inline _ => "inline table"
  | .table _ _ => "table"
  | .tables _ => "array of tables"

end Item

end ProgramGraphs.Toml
