import ProgramGraphs.Toml.Item

/-!
# Decoding TOML documents

A record is a table, or a list of its fields in order.  It starts from its defaults, and
each field that is given replaces one of them; keys that are no fields are ignored, and so
are items beyond the last field.  A choice is a name, or a table with the name as its only
key and nothing below it.
-/

namespace ProgramGraphs.Toml

open Reading (Mismatch)

/-- A way to take a value out of an item. -/
abbrev Decoder (α : Type) := Item → Except Mismatch α

/-- A field of a record, and how an item for it changes the record. -/
structure RecordField (ρ : Type) where
  name : String
  assign : Item → ρ → Except Mismatch ρ

namespace Decode

/-- The report of an item that is not of the expected kind. -/
def wrongType {α : Type} (expected : String) (item : Item) : Except Mismatch α :=
  .error (.wrongType item.found expected)

/-- A text. -/
def string : Decoder String
  | .string text => .ok text
  | item => wrongType "a string" item

/-- A list of any length. -/
def list {α : Type} (decode : Decoder α) : Decoder (List α)
  | .list items => items.mapM decode
  | .tables rows => rows.mapM fun row => decode (.table .header row)
  | item => wrongType "a sequence" item

/-- The field of a given name whose value a function puts into the record. -/
def field {ρ α : Type} (name : String) (decode : Decoder α) (set : α → ρ → ρ) : RecordField ρ where
  name := name
  assign item record := (fun value => set value record) <$> decode item

/-- Takes one entry of a table into a record. -/
def takeEntry {ρ : Type} (fields : List (RecordField ρ)) (record : ρ) (entry : String × Item) :
    Except Mismatch ρ :=
  match fields.find? (·.name == entry.1) with
  | some field => field.assign entry.2 record
  | none => .ok record

/-- A record whose fields are the entries of a table. -/
def ofEntries {ρ : Type} (fields : List (RecordField ρ)) (defaults : ρ) (entries : Entries) :
    Except Mismatch ρ :=
  entries.foldlM (takeEntry fields) defaults

/-- A record whose fields are the items of a list. -/
def ofItems {ρ : Type} (fields : List (RecordField ρ)) (defaults : ρ) (items : List Item) :
    Except Mismatch ρ :=
  (fields.zip items).foldlM (fun record (field, item) => field.assign item record) defaults

/-- A record of a given name.  A moment stands for a record without any of the fields. -/
def record {ρ : Type} (name : String) (fields : List (RecordField ρ)) (defaults : ρ) : Decoder ρ
  | .table _ entries => ofEntries fields defaults entries
  | .list items => ofItems fields defaults items
  | .tables rows => ofItems fields defaults (rows.map (.table .header))
  | .moment => .ok defaults
  | item => wrongType name item

/-- The choice of a given name. -/
def named {α : Type} (choices : List (String × α)) (name : String) : Except Mismatch α :=
  match choices.lookup name with
  | some choice => .ok choice
  | none => .error (.unknownVariant name (choices.map (·.1)))

/-- Checks that there is nothing below the name of a choice. -/
def nothing : Item → Except Mismatch Unit
  | .table _ [] => .ok ()
  | .table _ _ => .error .tableNotEmpty
  | .list [] => .ok ()
  | .list _ => .error .listNotEmpty
  | .tables [] => .ok ()
  | .tables _ => .error .listNotEmpty
  | item => .error (.notATable item.kind)

/-- One of several named choices. -/
def choice {α : Type} (choices : List (String × α)) : Decoder α
  | .string name => named choices name
  | .table _ [] => .error .noEntry
  | .table _ [(name, content)] => do
    let value ← named choices name
    nothing content
    return value
  | .table _ _ => .error .severalEntries
  | _ => .error .neitherNameNorTable

end Decode

end ProgramGraphs.Toml
