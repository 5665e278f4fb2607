import ProgramGraphs.Toml.Item

/-!
# Building TOML tables

A document builds its tables bit by bit.  Every key may be set once, and a table that was
given as a whole, by a header or by braces, cannot be given again or be added to from
outside.  The functions here add one part of a document, and give nothing when the part
breaks these rules.
-/

namespace ProgramGraphs.Toml

namespace Entries

/-- Changes the item of a key in place. -/
def replace (key : String) (item : Item) : Entries → Entries
  | [] => []
  | entry :: rest => if entry.1 = key then (key, item) :: rest else entry :: replace key item rest

/-- The entries without a key. -/
def erase (key : String) (entries : Entries) : Entries := entries.filter fun entry => entry.1 != key

/-- Adds an entry whose key is new. -/
def addNew (key : String) (item : Item) (entries : Entries) : Option Entries :=
  match entries.lookup key with
  | none => some (entries ++ [(key, item)])
  | some _ => none

/-- Changes the last of several tables. -/
def changeLast (change : Entries → Option Entries) (rows : List Entries) :
    Option (List Entries) := do
  let last ← rows.getLast?
  let last ← change last
  return rows.dropLast ++ [last]

/-- Sets a key with dots: the keys of the path lead through tables that were not given as a
whole, and the innermost one holds only what keys with dots put there. -/
def assign (key : String) (item : Item) : List String → Entries → Option Entries
  | [], entries => addNew key item entries
  | step :: path, entries =>
    match entries.lookup step with
    | none => do
      let inner ← assign key item path []
      return entries ++ [(step, .table .dotted inner)]
    | some (.table .dotted inner) => do
      let inner ← assign key item path inner
      return replace step (.table .dotted inner) entries
    | some (.table .implied inner) =>
      if path.isEmpty then none
      else do
        let inner ← assign key item path inner
        return replace step (.table .implied inner) entries
    | some (.tables rows) =>
      if path.isEmpty then none
      else do
        let rows ← changeLast (assign key item path) rows
        return replace step (.tables rows) entries
    | some _ => none

/-- Changes the table that a path of header keys leads to.  The path leads through tables
that braces did not give, and into the last of several tables. -/
def within (change : Entries → Option Entries) : List String → Entries → Option Entries
  | [], entries => change entries
  | step :: path, entries =>
    match entries.lookup step with
    | none => do
      let inner ← within change path []
      return entries ++ [(step, .table .implied inner)]
    | some (.table .inline _) => none
    | some (.table origin inner) => do
      let inner ← within change path inner
      return replace step (.table origin inner) entries
    | some (.tables rows) => do
      let rows ← changeLast (within change path) rows
      return replace step (.tables rows) entries
    | some _ => none

/-- Opens the table of a header.  One that was only implied so far is moved to the end. -/
def openTable (key : String) (entries : Entries) : Option Entries :=
  match entries.lookup key with
  | none => some (entries ++ [(key, .table .header [])])
  | some (.table .implied inner) => some (erase key entries ++ [(key, .table .header inner)])
  | some _ => none

/-- Opens one more table of a header in double brackets. -/
def openRow (key : String) (entries : Entries) : Option Entries :=
  match entries.lookup key with
  | none => some (entries ++ [(key, .tables [[]])])
  | some (.tables rows) => some (replace key (.tables (rows ++ [[]])) entries)
  | some _ => none

end Entries

end ProgramGraphs.Toml
