import Mathlib.Data.List.Basic

/-!
# Reading in one pass

A document is read twice in one pass each: its characters are cut into tokens, and the
tokens are read as the items of the document.  A reader of tokens is given by what one
token does at each place.  What it does on a whole document follows piece by piece
(`scan_flatMap`, `readFrom_flatMap`).
-/

namespace ProgramGraphs.Render

section

variable {α β ι : Type}

/-- Pieces that are each cut into their own tokens. -/
theorem scan_flatMap {scan : List α → List β} {write : ι → List α} {meaning : ι → List β}
    (hpiece : ∀ item rest, scan (write item ++ rest) = meaning item ++ scan rest) (items : List ι)
    (rest : List α) : scan (items.flatMap write ++ rest) = items.flatMap meaning ++ scan rest := by
  induction items with
  | nil => rfl
  | cons item items ih =>
      rw [List.flatMap_cons, List.append_assoc, hpiece, ih, List.flatMap_cons, List.append_assoc]

/-- Decoding item by item. -/
theorem mapM_map_eq_some {γ : Type} {encode : α → β} {decode : β → Option γ} {meaning : α → γ}
    {items : List α} (hitem : ∀ item ∈ items, decode (encode item) = some (meaning item)) :
    (items.map encode).mapM decode = some (items.map meaning) := by
  induction items with
  | nil => rfl
  | cons item items ih =>
      rw [List.map_cons, List.mapM_cons, hitem item (List.mem_cons_self ..),
        ih fun item hmem => hitem item (List.mem_cons_of_mem _ hmem)]
      rfl

end

section

variable {σ τ ι : Type} [DecidableEq σ] {step : σ → τ → Option (List ι × σ)} {ended : σ}

/-- The items of a row of tokens, when a token completes some items at a place and
leads to another place, and the row leads to a given last place. -/
def readFrom (step : σ → τ → Option (List ι × σ)) (ended place : σ) : List τ → Option (List ι)
  | [] => if place = ended then some [] else none
  | token :: rest =>
    match step place token with
    | some (found, next) => (readFrom step ended next rest).map (found ++ ·)
    | none => none

theorem readFrom_next {place next : σ} {token : τ} (hstep : step place token = some ([], next))
    (following : List τ) :
    readFrom step ended place (token :: following) = readFrom step ended next following := by
  rw [readFrom, hstep]
  exact Option.map_id'

theorem readFrom_found {place next : σ} {token : τ} {item : ι}
    (hstep : step place token = some ([item], next)) (following : List τ) :
    readFrom step ended place (token :: following) =
      (readFrom step ended next following).map (item :: ·) := by
  rw [readFrom, hstep]
  rfl

/-- Pieces whose tokens are each read as one item. -/
theorem readFrom_flatMap {κ : Type} {place : σ} {tokens : κ → List τ} {meaning : κ → ι}
    (hpiece : ∀ piece following, readFrom step ended place (tokens piece ++ following) =
      (readFrom step ended place following).map (meaning piece :: ·)) (pieces : List κ)
    (following : List τ) :
    readFrom step ended place (pieces.flatMap tokens ++ following) =
      (readFrom step ended place following).map (pieces.map meaning ++ ·) := by
  induction pieces with
  | nil => exact Option.map_id'.symm
  | cons piece pieces ih =>
      rw [List.flatMap_cons, List.append_assoc, hpiece, ih, Option.map_map]
      rfl

end

end ProgramGraphs.Render
