import ProgramGraphs.Toml.Item
import ProgramGraphs.Toml.Quoted

/-!
# Writing TOML documents

A settings document has sections, and each section has keys with a text or a list of
texts.  A list of several texts is written on several lines.
-/

namespace ProgramGraphs.Toml

/-- What a key of a settings document is set to. -/
inductive Setting where
  | text (value : String)
  | texts (values : List String)
  deriving DecidableEq, Repr, Inhabited

/-- The sections of a settings document, in order. -/
abbrev Sections := List (String × List (String × Setting))

namespace Setting

/-- The item that a setting is read as. -/
def toItem : Setting → Item
  | .text value => .string value
  | .texts values => .list (values.map .string)

/-- A text as it is written. -/
def quoted (text : String) : List Char := Quoted.quote text.toList

/-- A setting as it is written. -/
def render : Setting → List Char
  | .text value => quoted value
  | .texts [] => "[]".toList
  | .texts [value] => '[' :: quoted value ++ [']']
  | .texts values =>
    "[\n".toList ++ values.flatMap (fun value => "    ".toList ++ quoted value ++ ",\n".toList) ++
      [']']

end Setting

namespace Sections

/-- The entries that a settings document is read as. -/
def toEntries (sections : Sections) : Entries :=
  sections.map fun (name, settings) =>
    (name, .table .header (settings.map fun (key, setting) => (key, setting.toItem)))

/-- The line or lines of one setting. -/
def settingLines (setting : String × Setting) : List Char :=
  setting.1.toList ++ " = ".toList ++ setting.2.render ++ ['\n']

/-- The lines of one section. -/
def sectionLines (part : String × List (String × Setting)) : List Char :=
  '[' :: part.1.toList ++ "]\n".toList ++ part.2.flatMap settingLines

/-- The characters of a settings document, with an empty line between sections. -/
def document (sections : Sections) : List Char :=
  ['\n'].intercalate (sections.map sectionLines)

/-- A settings document. -/
def render (sections : Sections) : String := String.ofList sections.document

end Sections

end ProgramGraphs.Toml
