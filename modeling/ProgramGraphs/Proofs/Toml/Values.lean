import ProgramGraphs.Proofs.Toml.Quoted
import ProgramGraphs.Toml.Document
import ProgramGraphs.Toml.Settings

/-!
# Settings are read back

A scanner either takes something off the start of a text or fails, so what a compound
scanner does follows from what its parts take, one after the other (`bind_of_takes`).
What a part takes may depend on the text behind it, and there only on its first
character (`Stops`, `EndsText`).

A setting is a text or a list of texts.  A list of several texts has a comma behind every
one of them, so the scanner of its items meets one comma that no item follows and leaves
it to the list (`separated_valueLines`).
-/

namespace ProgramGraphs.Toml

namespace Scan

/-! ## Scanners -/

variable {α β : Type}

/-- A scanner that takes something hands on what is left. -/
theorem bind_of_takes {scan : Scan α} {text rest : List Char} {value : α}
    (htakes : scan text = some (value, rest)) (next : α → Scan β) :
    (scan >>= next) text = next value rest := by
  change (scan text >>= fun taken => next taken.1 taken.2) = _
  rw [htakes]
  rfl

theorem bind_of_fails {scan : Scan α} {text : List Char} (hfails : scan text = none)
    (next : α → Scan β) : (scan >>= next) text = none := by
  change (scan text >>= fun taken => next taken.1 taken.2) = _
  rw [hfails]
  rfl

theorem attempt_of_takes {scan : Scan α} {text rest : List Char} {value : α}
    (htakes : scan text = some (value, rest)) : attempt scan text = some (some value, rest) := by
  rw [attempt, htakes]

theorem attempt_of_fails {scan : Scan α} {text : List Char} (hfails : scan text = none) :
    attempt scan text = some (none, text) := by
  rw [attempt, hfails]

/-- Whether a text starts with no character that passes a test. -/
def Stops (test : Char → Bool) (text : List Char) : Prop :=
  ∀ c following, text = c :: following → test c = false

theorem stops_cons {test : Char → Bool} {c : Char} (hc : test c = false) (following : List Char) :
    Stops test (c :: following) := by
  intro d rest hsame
  rw [← (List.cons.inj hsame).1]
  exact hc

theorem takeWhile_append {test : Char → Bool} {taken rest : List Char}
    (htaken : ∀ c ∈ taken, test c = true) (hrest : Stops test rest) :
    takeWhile test (taken ++ rest) = some (taken, rest) := by
  have hstop : rest.takeWhile test = [] ∧ rest.dropWhile test = rest := by
    cases rest with
    | nil => exact ⟨rfl, rfl⟩
    | cons c following => simp [hrest c following rfl]
  rw [takeWhile, List.takeWhile_append_of_pos htaken, List.dropWhile_append_of_pos htaken,
    hstop.1, hstop.2, List.append_nil]

theorem char_cons (c : Char) (rest : List Char) : char c (c :: rest) = some ((), rest) :=
  if_pos rfl

theorem char_of_stops {c : Char} {rest : List Char} (hrest : Stops (· == c) rest) :
    char c rest = none := by
  cases rest with
  | nil => rfl
  | cons d following => exact if_neg (by simpa using hrest d following rfl)

/-! ## Items with separators -/

section Separated

variable {item : Scan α} {separator : Scan Unit} {value : α} {text rest : List Char}

theorem separated_none (bound : Nat) (hitem : item text = none) :
    separated item separator bound text = some ([], text) := by
  cases bound with
  | zero => rfl
  | succ bound =>
      rw [separated, bind_of_takes (attempt_of_fails hitem)]
      rfl

/-- The last item: no separator follows, or one that no item follows. -/
theorem separated_last (bound : Nat) (hitem : item text = some (value, rest))
    (hlast : ∀ after, separator rest = some ((), after) → item after = none) :
    separated item separator (bound + 1) text = some ([value], rest) := by
  have hmore : (do
      separator
      let more ← separated item separator bound
      if more.isEmpty then failure else return more : Scan (List α)) rest = none := by
    cases hseparator : separator rest with
    | none => exact bind_of_fails hseparator _
    | some taken =>
        rw [bind_of_takes hseparator,
          bind_of_takes (separated_none bound (hlast taken.2 hseparator))]
        rfl
  rw [separated, bind_of_takes (attempt_of_takes hitem)]
  exact bind_of_takes (attempt_of_fails hmore) _

theorem separated_more {bound : Nat} {after last : List Char} {next : α} {values : List α}
    (hitem : item text = some (value, rest)) (hseparator : separator rest = some ((), after))
    (hvalues : separated item separator bound after = some (next :: values, last)) :
    separated item separator (bound + 1) text = some (value :: next :: values, last) := by
  have hmore : (do
      separator
      let more ← separated item separator bound
      if more.isEmpty then failure else return more : Scan (List α)) rest =
        some (next :: values, last) := by
    rw [bind_of_takes hseparator, bind_of_takes hvalues]
    rfl
  rw [separated, bind_of_takes (attempt_of_takes hitem)]
  exact bind_of_takes (attempt_of_takes hmore) _

/-- One item alone. -/
theorem separatedBy_single (hitem : item text = some (value, rest)) (hne : text ≠ [])
    (hseparator : separator rest = none) :
    separatedBy item separator text = some ([value], rest) := by
  obtain ⟨c, more, rfl⟩ := List.exists_cons_of_ne_nil hne
  refine separated_last _ hitem fun after hafter => ?_
  rw [hseparator] at hafter
  contradiction

end Separated

/-! ## Between the parts of a document -/

theorem blanks_append {taken rest : List Char} (htaken : ∀ c ∈ taken, isBlank c = true)
    (hrest : Stops isBlank rest) : blanks (taken ++ rest) = some ((), rest) := by
  rw [blanks, bind_of_takes (takeWhile_append htaken hrest)]
  rfl

theorem blanks_of_stops {rest : List Char} (hrest : Stops isBlank rest) :
    blanks rest = some ((), rest) :=
  @blanks_append [] rest (by simp) hrest

/-- A character that may stand before an item. -/
def isFilling (c : Char) : Bool := isBlank c || c == '#' || c == '\n' || c == '\r'

theorem fillLines_of_stops (bound : Nat) {taken rest : List Char}
    (htaken : ∀ c ∈ taken, isBlank c = true) (hrest : Stops isFilling rest) :
    fillLines bound (taken ++ rest) = some ((), rest) := by
  have hsolid : Stops isBlank rest ∧ Stops (· == '#') rest ∧ newline rest = none := by
    cases rest with
    | nil => exact ⟨fun _ _ h => by simp at h, fun _ _ h => by simp at h, rfl⟩
    | cons c following =>
        have hc := hrest c following rfl
        simp only [isFilling, Bool.or_eq_false_iff, beq_eq_false_iff_ne] at hc
        obtain ⟨⟨⟨hblank, hmark⟩, hline⟩, hreturn⟩ := hc
        refine ⟨stops_cons hblank _, stops_cons (by simpa using hmark) _, ?_⟩
        unfold newline
        split <;> simp_all
  have hblanks := blanks_append htaken hsolid.1
  have hcomment : comment rest = none := by
    rw [comment, bind_of_fails (char_of_stops hsolid.2.1)]
  cases bound with
  | zero => exact hblanks
  | succ bound =>
      have hline : (do let _ ← attempt comment; newline : Scan Unit) rest = none := by
        rw [bind_of_takes (attempt_of_fails hcomment)]
        exact hsolid.2.2
      rw [fillLines, bind_of_takes hblanks, bind_of_takes (attempt_of_fails hline)]
      rfl

theorem fill_of_stops {rest : List Char} (hrest : Stops isFilling rest) :
    fill rest = some ((), rest) :=
  @fillLines_of_stops _ [] rest (by simp) hrest

/-- A line end and the blanks of the next line. -/
theorem fill_lineEnd {taken rest : List Char} (htaken : ∀ c ∈ taken, isBlank c = true)
    (hrest : Stops isFilling rest) : fill ('\n' :: (taken ++ rest)) = some ((), rest) := by
  have hline : ∀ rest, (do let _ ← attempt comment; newline : Scan Unit) ('\n' :: rest) =
      some ((), rest) := fun _ => rfl
  rw [fill, List.length_cons, fillLines, bind_of_takes (blanks_of_stops (stops_cons rfl _)),
    bind_of_takes (attempt_of_takes (hline _))]
  exact fillLines_of_stops _ htaken hrest

theorem lineEnd_lineEnd (rest : List Char) : lineEnd ('\n' :: rest) = some ((), rest) := by
  rw [lineEnd, bind_of_takes (blanks_of_stops (stops_cons rfl _))]
  rfl

end Scan

open Scan (Stops stops_cons bind_of_takes bind_of_fails attempt_of_takes attempt_of_fails)

/-! ## Keys -/

/-- A key that is written without quotes. -/
def Bare (name : List Char) : Prop := name ≠ [] ∧ ∀ c ∈ name, isBareKey c = true

instance : DecidablePred Bare := fun name =>
  @instDecidableAnd _ _ _ (List.decidableBAll _ name)

theorem ne_of_isBareKey {c d : Char} (hc : isBareKey c = true) (hd : isBareKey d = false) :
    c ≠ d := by
  rintro rfl
  rw [hc] at hd
  contradiction

theorem isBlank_of_isBareKey {c : Char} (hc : isBareKey c = true) : Scan.isBlank c = false := by
  have hblank := ne_of_isBareKey (d := ' ') hc rfl
  have htab := ne_of_isBareKey (d := '\t') hc rfl
  simpa [Scan.isBlank] using And.intro hblank htab

theorem Bare.exists_cons {name : List Char} (hbare : Bare name) :
    ∃ c rest, name = c :: rest ∧ isBareKey c = true := by
  cases name with
  | nil => exact absurd rfl hbare.1
  | cons c rest => exact ⟨c, rest, rfl, hbare.2 c List.mem_cons_self⟩

theorem simpleKey_bare {name rest : List Char} (hbare : Bare name)
    (hrest : Stops isBareKey rest) :
    simpleKey (name ++ rest) = some (String.ofList name, rest) := by
  have htaken := Scan.takeWhile_append hbare.2 hrest
  obtain ⟨c, more, hname, hc⟩ := hbare.exists_cons
  unfold simpleKey
  split
  · rename_i htext
    rw [hname] at htext
    exact absurd (List.cons.inj htext).1 (ne_of_isBareKey hc rfl)
  · rename_i htext
    rw [hname] at htext
    exact absurd (List.cons.inj htext).1 (ne_of_isBareKey hc rfl)
  · rw [bind_of_takes htaken, if_neg (by simpa using hbare.1)]
    rfl

/-- **A key without dots** is taken with the blanks behind it. -/
theorem key_bare {name taken rest : List Char} (hbare : Bare name)
    (htaken : ∀ c ∈ taken, Scan.isBlank c = true) (hstop : Stops isBareKey (taken ++ rest))
    (hrest : Stops Scan.isBlank rest) (hdot : Stops (· == '.') rest) :
    key (name ++ (taken ++ rest)) = some (([], String.ofList name), rest) := by
  obtain ⟨c, more, hname, hc⟩ := hbare.exists_cons
  have hfirst : Stops Scan.isBlank (name ++ (taken ++ rest)) := by
    rw [hname]
    exact stops_cons (isBlank_of_isBareKey hc) _
  have hpart : (do
      Scan.blanks
      let part ← simpleKey
      Scan.blanks
      return part : Scan String) (name ++ (taken ++ rest)) = some (String.ofList name, rest) := by
    rw [bind_of_takes (Scan.blanks_of_stops hfirst), bind_of_takes (simpleKey_bare hbare hstop),
      bind_of_takes (Scan.blanks_append htaken hrest)]
    rfl
  have hparts : Scan.separatedBy (do
      Scan.blanks
      let part ← simpleKey
      Scan.blanks
      return part : Scan String) (Scan.char '.') (name ++ (taken ++ rest)) =
        some ([String.ofList name], rest) :=
    Scan.separatedBy_single hpart (by simp [hname]) (Scan.char_of_stops hdot)
  rw [key, bind_of_takes hparts]
  rfl

/-! ## Values -/

theorem exists_quote_cons (text : List Char) :
    ∃ c more, Quoted.quote text = c :: more ∧ (c = '"' ∨ c = '\'') := by
  unfold Quoted.quote
  cases Quoted.style text with
  | basic => exact ⟨'"', _, rfl, .inl rfl⟩
  | literal => exact ⟨'\'', _, rfl, .inr rfl⟩
  | multiBasic => exact ⟨'"', _, rfl, .inl rfl⟩
  | multiLiteral => exact ⟨'\'', _, rfl, .inr rfl⟩

/-- A text is taken as an item, however many lists may still be opened. -/
theorem item_quoted (room : Nat) (value : String) {rest : List Char} (hends : EndsText rest) :
    item room (Setting.quoted value ++ rest) = some (.string value, rest) := by
  have hany : Text.any (Setting.quoted value ++ rest) = some (value.toList, rest) :=
    any_quote value.toList hends
  obtain ⟨c, more, hcons, hc⟩ := exists_quote_cons value.toList
  have hwritten : Setting.quoted value ++ rest = c :: (more ++ rest) :=
    congrArg (· ++ rest) hcons
  have hscalar : scalar (c :: (more ++ rest)) = some (.string value, rest) := by
    rw [hwritten] at hany
    have hmap : (Text.any (c :: (more ++ rest))).map
        (fun taken => (Item.string (String.ofList taken.1), taken.2)) =
          some (.string value, rest) := by
      rw [hany]
      exact congrArg (fun text => some (Item.string text, rest)) String.ofList_toList
    rcases hc with rfl | rfl <;> exact hmap
  rw [hwritten]
  cases room <;> rcases hc with rfl | rfl <;> exact hscalar

/-- No item starts with a closing bracket. -/
theorem item_bracket (room : Nat) (rest : List Char) : item room (']' :: rest) = none := by
  cases room <;> rfl

theorem endsText_cons {c : Char} (hc : c ≠ '"' ∧ c ≠ '\'') (following : List Char) :
    EndsText (c :: following) := by
  intro d rest hsame
  rw [← (List.cons.inj hsame).1]
  exact hc

/-! ## Lists -/

/-- An item of a list, with what may stand before and behind it. -/
def listed (room : Nat) : Scan Item := do
  Scan.fill
  let item ← item room
  Scan.fill
  return item

theorem stops_quoted {test : Char → Bool} (hbasic : test '"' = false)
    (hliteral : test '\'' = false) (value : String) (rest : List Char) :
    Stops test (Setting.quoted value ++ rest) := by
  obtain ⟨c, more, hcons, hc⟩ := exists_quote_cons value.toList
  have hwritten : Setting.quoted value ++ rest = c :: (more ++ rest) :=
    congrArg (· ++ rest) hcons
  rw [hwritten]
  rcases hc with rfl | rfl
  · exact stops_cons hbasic _
  · exact stops_cons hliteral _

theorem listed_of_fill {room : Nat} {text rest : List Char} {value : String}
    (hfill : Scan.fill text = some ((), Setting.quoted value ++ rest)) (hends : EndsText rest)
    (hrest : Stops Scan.isFilling rest) : listed room text = some (.string value, rest) := by
  rw [listed, bind_of_takes hfill, bind_of_takes (item_quoted room value hends),
    bind_of_takes (Scan.fill_of_stops hrest)]
  rfl

theorem listed_bracket {room : Nat} {text rest : List Char}
    (hfill : Scan.fill text = some ((), ']' :: rest)) : listed room text = none := by
  rw [listed, bind_of_takes hfill, bind_of_fails (item_bracket room rest)]

/-- A text of a list on a line of its own, after the end of the line before. -/
def valueLine (value : String) : List Char :=
  '\n' :: ("    ".toList ++ (Setting.quoted value ++ [',']))

theorem listed_valueLine (room : Nat) (value : String) (rest : List Char) :
    listed room (valueLine value ++ rest) = some (.string value, ',' :: rest) := by
  have hfill : Scan.fill (valueLine value ++ rest) =
      some ((), Setting.quoted value ++ ',' :: rest) := by
    have hline := @Scan.fill_lineEnd "    ".toList _ (List.all_eq_true.mp rfl)
      (stops_quoted rfl rfl value (',' :: rest))
    rw [← hline]
    simp [valueLine]
  exact listed_of_fill hfill (endsText_cons (by decide) rest) (stops_cons rfl rest)

/-- **The texts of a list on several lines** are taken one by one; the comma behind the last
one is left. -/
theorem separated_valueLines (room : Nat) (value : String) (values : List String)
    {bound : Nat} (hbound : values.length ≤ bound) (rest : List Char) :
    Scan.separated (listed room) (Scan.char ',') (bound + 1)
        ((value :: values).flatMap valueLine ++ '\n' :: ']' :: rest) =
      some ((value :: values).map .string, ',' :: '\n' :: ']' :: rest) := by
  have hclosing : listed room ('\n' :: ']' :: rest) = none :=
    listed_bracket (@Scan.fill_lineEnd [] _ (by simp) (stops_cons rfl rest))
  induction values generalizing value bound with
  | nil =>
      have hitem := listed_valueLine room value ('\n' :: ']' :: rest)
      refine Scan.separated_last bound ?_ fun after hafter => ?_
      · simpa using hitem
      · rw [Scan.char_cons] at hafter
        obtain rfl := congrArg Prod.snd (Option.some.inj hafter)
        exact hclosing
  | cons next values ih =>
      obtain ⟨bound, rfl⟩ := Nat.exists_eq_add_of_lt hbound
      have hmore := ih next (Nat.le_of_succ_le_succ hbound)
      have hitem := listed_valueLine room value
        ((next :: values).flatMap valueLine ++ '\n' :: ']' :: rest)
      rw [List.flatMap_cons, List.append_assoc]
      exact Scan.separated_more hitem (Scan.char_cons ',' _) hmore

/-- What is written of some values has a character for each of them. -/
theorem length_le_flatMap {α : Type} {write : α → List Char} {values : List α}
    (hwrites : ∀ value ∈ values, write value ≠ []) :
    values.length ≤ (values.flatMap write).length := by
  induction values with
  | nil => exact Nat.le_refl 0
  | cons value values ih =>
      have hvalue := List.length_pos_iff.mpr (hwrites value List.mem_cons_self)
      have hvalues := ih fun other hother => hwrites other (List.mem_cons_of_mem _ hother)
      rw [List.flatMap_cons, List.length_append, List.length_cons]
      omega

/-- The lines of a list are written with their line ends behind them. -/
theorem flatMap_valueLine (values : List String) :
    '\n' :: values.flatMap (fun value => "    ".toList ++ Setting.quoted value ++ ",\n".toList) =
      values.flatMap valueLine ++ ['\n'] := by
  induction values with
  | nil => rfl
  | cons value values ih =>
      rw [List.flatMap_cons, List.flatMap_cons, List.append_assoc (valueLine value), ← ih]
      simp [valueLine]

/-- A list is closed by a bracket, before which a comma may stand. -/
theorem listOf_of_takes {room : Nat} {text after last rest : List Char} {items : List Item}
    (hitems : Scan.separatedBy (listed room) (Scan.char ',') text = some (items, after))
    (hcomma : after = last ∧ Stops (· == ',') last ∨ items ≠ [] ∧ after = ',' :: last)
    (hfill : Scan.fill last = some ((), ']' :: rest)) :
    listOf (item room) text = some (.list items, rest) := by
  have hclosing : (do
      if items.isEmpty then pure () else do
        let _ ← Scan.attempt (Scan.char ',')
      Scan.fill
      Scan.char ']'
      return .list items : Scan Item) after = some (.list items, rest) := by
    have hend : (do
        Scan.fill
        Scan.char ']'
        return .list items : Scan Item) last = some (.list items, rest) := by
      rw [bind_of_takes hfill, bind_of_takes (Scan.char_cons ']' rest)]
      rfl
    rcases hcomma with ⟨rfl, hstop⟩ | ⟨hne, rfl⟩
    · cases items with
      | nil => exact hend
      | cons first items =>
          exact (bind_of_takes (attempt_of_fails (Scan.char_of_stops hstop)) _).trans hend
    · cases items with
      | nil => exact absurd rfl hne
      | cons first items =>
          exact (bind_of_takes (attempt_of_takes (Scan.char_cons ',' last)) _).trans hend
  exact (bind_of_takes hitems _).trans hclosing

/-- **A setting is read back**, up to the end of its line. -/
theorem item_render (room : Nat) (setting : Setting) (rest : List Char) :
    item (room + 1) (setting.render ++ '\n' :: rest) = some (setting.toItem, '\n' :: rest) := by
  have hlist : ∀ text, item (room + 1) ('[' :: text) = listOf (item room) text := fun _ => rfl
  have hend : EndsText ('\n' :: rest) := endsText_cons (by decide) rest
  match setting with
  | .text value => exact item_quoted (room + 1) value hend
  | .texts [] =>
      have hbracket : Scan.fill (']' :: '\n' :: rest) = some ((), ']' :: '\n' :: rest) :=
        Scan.fill_of_stops (stops_cons rfl _)
      have hnone : listed room (']' :: '\n' :: rest) = none := listed_bracket hbracket
      refine (hlist _).trans ?_
      exact listOf_of_takes (Scan.separated_none _ hnone) (.inl ⟨rfl, stops_cons rfl _⟩) hbracket
  | .texts [value] =>
      have hbracket : Scan.fill (']' :: '\n' :: rest) = some ((), ']' :: '\n' :: rest) :=
        Scan.fill_of_stops (stops_cons rfl _)
      have hvalue : listed room (Setting.quoted value ++ ']' :: '\n' :: rest) =
          some (.string value, ']' :: '\n' :: rest) :=
        listed_of_fill (Scan.fill_of_stops (stops_quoted rfl rfl value _))
          (endsText_cons (by decide) _) (stops_cons rfl _)
      have hitems := Scan.separatedBy_single hvalue (by simp)
        (Scan.char_of_stops (c := ',') (stops_cons rfl _))
      have hwritten : (Setting.texts [value]).render ++ '\n' :: rest =
          '[' :: (Setting.quoted value ++ ']' :: '\n' :: rest) := by
        simp [Setting.render]
      rw [hwritten, hlist]
      exact listOf_of_takes hitems (.inl ⟨rfl, stops_cons rfl _⟩) hbracket
  | .texts (first :: second :: values) =>
      have hbracket : Scan.fill ('\n' :: ']' :: '\n' :: rest) = some ((), ']' :: '\n' :: rest) :=
        @Scan.fill_lineEnd [] _ (by simp) (stops_cons rfl _)
      have hwritten : (Setting.texts (first :: second :: values)).render ++ '\n' :: rest =
          '[' :: ((first :: second :: values).flatMap valueLine ++
            '\n' :: ']' :: '\n' :: rest) := by
        have hlines := flatMap_valueLine (first :: second :: values)
        calc (Setting.texts (first :: second :: values)).render ++ '\n' :: rest
            = '[' :: ('\n' :: (first :: second :: values).flatMap (fun value =>
                "    ".toList ++ Setting.quoted value ++ ",\n".toList) ++ ']' :: '\n' :: rest) := by
              simp [Setting.render]
          _ = _ := by rw [hlines, List.append_assoc, List.singleton_append]
      have hitems : Scan.separatedBy (listed room) (Scan.char ',')
          ((first :: second :: values).flatMap valueLine ++ '\n' :: ']' :: '\n' :: rest) =
            some ((first :: second :: values).map .string, ',' :: '\n' :: ']' :: '\n' :: rest) := by
        have hlength : (first :: second :: values).length ≤
            ((first :: second :: values).flatMap valueLine).length :=
          length_le_flatMap fun _ _ => List.cons_ne_nil _ _
        unfold Scan.separatedBy
        rw [List.length_append, List.length_cons, ← Nat.add_assoc]
        refine separated_valueLines room first (second :: values) ?_ ('\n' :: rest)
        rw [List.length_cons] at hlength
        omega
      rw [hwritten, hlist]
      exact listOf_of_takes hitems (.inr ⟨by simp, rfl⟩) hbracket

end ProgramGraphs.Toml
