import Mathlib.Data.List.Nodup
import ProgramGraphs.Proofs.Toml.Values

/-!
# Settings documents are read back

A settings document is a row of lines: headers of sections, settings, and the empty lines
between sections.  Each of them is one expression to the reader (`Plain.expression_chars`),
so reading the document goes through the lines in order (`expressions_lines`).

Lines may be taken out of a document again.  A setting may go alone, and a section goes
with all of its settings; the empty lines may go or stay as they like.  What is left is
read as the sections and settings that are left (`read_remaining`).
-/

namespace ProgramGraphs.Toml

open Scan (Stops stops_cons bind_of_takes bind_of_fails attempt_of_takes attempt_of_fails)

/-! ## Lines -/

/-- A part of a settings document that may be taken out. -/
inductive Line where
  /-- The empty line before a section. -/
  | gap (name : String)
  | header (name : String)
  /-- A setting of a section. -/
  | setting (name key : String) (value : Setting)

namespace Line

/-- The characters of a line, with the end of the line. -/
def chars : Line → List Char
  | .gap _ => ['\n']
  | .header name => '[' :: (name.toList ++ "]\n".toList)
  | .setting _ key value => Sections.settingLines (key, value)

/-- Names and keys are written without quotes. -/
def Plain : Line → Prop
  | .gap _ => True
  | .header name => Bare name.toList
  | .setting _ key _ => Bare key.toList

/-- What reading a line does. -/
def apply (progress : Progress) : Line → Option Progress
  | .gap _ => some progress
  | .header name => progress.enter Entries.openTable [] name
  | .setting _ key value => progress.assign [] key value.toItem

end Line

theorem header_bare {name : String} (hbare : Bare name.toList) (progress : Progress)
    (rest : List Char) :
    header progress (name.toList ++ ("]\n".toList ++ rest)) =
      (progress.enter Entries.openTable [] name).map (·, rest) := by
  have hkey : key (name.toList ++ ([] ++ ("]\n".toList ++ rest))) =
      some (([], String.ofList name.toList), "]\n".toList ++ rest) :=
    key_bare hbare (by simp) (stops_cons rfl _) (stops_cons rfl _) (stops_cons rfl _)
  obtain ⟨c, more, hname, hc⟩ := hbare.exists_cons
  unfold header
  split
  · rename_i htext
    rw [hname] at htext
    exact absurd (List.cons.inj htext).1 (ne_of_isBareKey hc rfl)
  · rw [List.nil_append, String.ofList_toList] at hkey
    rw [bind_of_takes hkey]
    refine (bind_of_takes (Scan.char_cons ']' _) _).trans ?_
    refine (bind_of_takes (Scan.lineEnd_lineEnd rest) _).trans ?_
    cases progress.enter Entries.openTable [] name <;> rfl

theorem stops_render (value : Setting) (rest : List Char) :
    Stops Scan.isBlank (value.render ++ rest) := by
  match value with
  | .text value => exact stops_quoted rfl rfl value rest
  | .texts [] | .texts [_] | .texts (_ :: _ :: _) => exact stops_cons rfl _

theorem assignment_bare {key : String} (hbare : Bare key.toList) (value : Setting)
    (progress : Progress) (rest : List Char) :
    assignment progress (Sections.settingLines (key, value) ++ rest) =
      (progress.assign [] key value.toItem).map (·, rest) := by
  have hblank : ∀ c ∈ [' '], Scan.isBlank c = true := List.all_eq_true.mp rfl
  have hkey : Toml.key (key.toList ++ ([' '] ++ '=' :: ' ' :: (value.render ++ '\n' :: rest))) =
      some (([], String.ofList key.toList), '=' :: ' ' :: (value.render ++ '\n' :: rest)) :=
    key_bare hbare hblank (stops_cons rfl _) (stops_cons rfl _) (stops_cons rfl _)
  have hblanks : Scan.blanks ([' '] ++ (value.render ++ '\n' :: rest)) =
      some ((), value.render ++ '\n' :: rest) :=
    Scan.blanks_append hblank (stops_render value _)
  have hpair : keyWithValue (item nestingLimit) (Sections.settingLines (key, value) ++ rest) =
      some ((([], key), value.toItem), '\n' :: rest) := by
    have hwritten : Sections.settingLines (key, value) ++ rest =
        key.toList ++ ([' '] ++ '=' :: ' ' :: (value.render ++ '\n' :: rest)) := by
      simp [Sections.settingLines]
    have hitem : item nestingLimit (value.render ++ '\n' :: rest) =
        some (value.toItem, '\n' :: rest) := item_render 78 value rest
    rw [hwritten, keyWithValue, bind_of_takes hkey, String.ofList_toList,
      bind_of_takes (Scan.char_cons '=' _)]
    refine (bind_of_takes hblanks _).trans ?_
    exact bind_of_takes hitem _
  rw [assignment, bind_of_takes hpair]
  refine (bind_of_takes (Scan.lineEnd_lineEnd rest) _).trans ?_
  cases progress.assign [] key value.toItem <;> rfl

namespace Line

theorem exists_setting_cons {key : String} (hbare : Bare key.toList) (value : Setting) :
    ∃ c more, Sections.settingLines (key, value) = c :: more ∧ isBareKey c = true := by
  obtain ⟨c, more, hkey, hc⟩ := hbare.exists_cons
  refine ⟨c, more ++ (" = ".toList ++ (value.render ++ ['\n'])), ?_, hc⟩
  simp [Sections.settingLines, hkey]

/-- A line starts with a character that neither blanks nor a byte order mark take. -/
theorem Plain.exists_cons {line : Line} (hplain : line.Plain) :
    ∃ c more, line.chars = c :: more ∧ Scan.isBlank c = false ∧ c ≠ '\ufeff' := by
  cases line with
  | gap name => exact ⟨'\n', [], rfl, rfl, by decide⟩
  | header name => exact ⟨'[', _, rfl, rfl, by decide⟩
  | setting name key value =>
      obtain ⟨c, more, hwritten, hc⟩ := exists_setting_cons hplain value
      exact ⟨c, more, hwritten, isBlank_of_isBareKey hc, ne_of_isBareKey hc rfl⟩

/-- **A line is one expression.** -/
theorem Plain.expression_chars {line : Line} (hplain : line.Plain) (progress : Progress)
    (rest : List Char) :
    expression progress (line.chars ++ rest) = (line.apply progress).map (·, rest) := by
  cases line with
  | gap name => rfl
  | header name =>
      have hheader := header_bare hplain progress rest
      rw [← List.append_assoc] at hheader
      exact hheader
  | setting name key value =>
      have hassignment := assignment_bare hplain value progress rest
      obtain ⟨c, more, hwritten, hc⟩ := exists_setting_cons hplain value
      refine Eq.trans ?_ hassignment
      rw [chars, hwritten, List.cons_append]
      -- the marks that start other expressions are no part of a key
      unfold expression
      split
      · exact absurd (List.cons.inj ‹_›).1 (ne_of_isBareKey hc rfl)
      · exact absurd (List.cons.inj ‹_›).1 (ne_of_isBareKey hc rfl)
      · exact absurd (List.cons.inj ‹_›).1 (ne_of_isBareKey hc rfl)
      · exact absurd (List.cons.inj ‹_›).1 (ne_of_isBareKey hc rfl)
      · rfl

end Line

/-- **The lines of a document are read in order.** -/
theorem expressions_lines {lines : List Line} (hplain : ∀ line ∈ lines, line.Plain) {bound : Nat}
    (hbound : lines.length < bound) (progress : Progress) :
    expressions bound progress (lines.flatMap Line.chars) =
      (lines.foldlM Line.apply progress).map (·, []) := by
  induction lines generalizing bound progress with
  | nil =>
      obtain ⟨bound, rfl⟩ := Nat.exists_eq_succ_of_ne_zero (Nat.ne_zero_of_lt hbound)
      rfl
  | cons line lines ih =>
      obtain ⟨bound, rfl⟩ := Nat.exists_eq_succ_of_ne_zero (Nat.ne_zero_of_lt hbound)
      have hline : line.Plain := hplain line List.mem_cons_self
      have hlines := ih (fun other hother => hplain other (List.mem_cons_of_mem _ hother))
        (Nat.lt_of_succ_lt_succ hbound)
      obtain ⟨c, more, hchars, hblank, -⟩ := hline.exists_cons
      have hexpression := hline.expression_chars progress (lines.flatMap Line.chars)
      rw [hchars, List.cons_append] at hexpression
      rw [List.flatMap_cons, hchars, List.cons_append, expressions,
        bind_of_takes (Scan.blanks_of_stops (stops_cons hblank _))]
      have hmore : Scan.ending (c :: (more ++ lines.flatMap Line.chars)) = none := rfl
      refine (bind_of_takes (attempt_of_fails hmore) _).trans ?_
      rw [List.foldlM_cons]
      cases hnext : line.apply progress with
      | none =>
          rw [hnext] at hexpression
          exact bind_of_fails hexpression _
      | some next =>
          rw [hnext] at hexpression
          exact (bind_of_takes hexpression _).trans (hlines next)

theorem read_ofList {content : List Char} (hmark : Stops (· == '\ufeff') content) :
    read (String.ofList content) =
      (expressions (content.length + 1) {} content).map fun (progress, _) => progress.root := by
  unfold read
  rw [String.toList_ofList]
  split
  · rename_i rest
    exact absurd (hmark '\ufeff' rest rfl) (by decide)
  · dsimp only
    cases expressions (content.length + 1) {} content <;> rfl

/-- **A document is read line by line.** -/
theorem read_lines {lines : List Line} (hplain : ∀ line ∈ lines, line.Plain) :
    read (String.ofList (lines.flatMap Line.chars)) =
      (lines.foldlM Line.apply {}).map Progress.root := by
  have hmark : Stops (· == '\ufeff') (lines.flatMap Line.chars) := by
    cases lines with
    | nil => exact fun _ _ hsame => nomatch hsame
    | cons line lines =>
        obtain ⟨c, more, hchars, -, hmark⟩ := (hplain line List.mem_cons_self).exists_cons
        rw [List.flatMap_cons, hchars, List.cons_append]
        exact @stops_cons (· == '\ufeff') c (beq_false_of_ne hmark) _
  have hbound : lines.length < (lines.flatMap Line.chars).length + 1 := by
    refine Nat.lt_succ_of_le (length_le_flatMap fun line hline => ?_)
    obtain ⟨c, more, hchars, -, -⟩ := (hplain line hline).exists_cons
    exact hchars ▸ List.cons_ne_nil c more
  rw [read_ofList hmark, expressions_lines hplain hbound, Option.map_map]
  rfl

/-! ## Sections -/

namespace Sections

/-- The lines of one section. -/
def linesOf (part : String × List (String × Setting)) : List Line :=
  .header part.1 :: part.2.map fun (key, value) => .setting part.1 key value

/-- The lines of a document. -/
def lines : Sections → List Line
  | [] => []
  | first :: others => linesOf first ++ others.flatMap fun part => .gap part.1 :: linesOf part

theorem flatMap_chars_linesOf (part : String × List (String × Setting)) :
    (linesOf part).flatMap Line.chars = sectionLines part := by
  simp only [linesOf, sectionLines, List.flatMap_cons, List.flatMap_map, Line.chars,
    List.cons_append]

theorem intercalate_lineEnd (first : List Char) (others : List (List Char)) :
    ['\n'].intercalate (first :: others) = first ++ others.flatMap ('\n' :: ·) := by
  induction others generalizing first with
  | nil => simp [List.intercalate]
  | cons second others ih =>
      rw [List.intercalate, List.intersperse_cons_cons, List.flatten_cons, List.flatten_cons,
        List.flatMap_cons]
      exact congrArg (fun rest => first ++ ('\n' :: rest)) (ih second)

/-- A document is its lines. -/
theorem flatMap_chars_lines (sections : Sections) :
    sections.lines.flatMap Line.chars = sections.document := by
  cases sections with
  | nil => rfl
  | cons first others =>
      have hothers : ∀ part : String × List (String × Setting),
          (Line.gap part.1 :: linesOf part).flatMap Line.chars = '\n' :: sectionLines part :=
        fun part => congrArg ('\n' :: ·) (flatMap_chars_linesOf part)
      rw [lines, List.flatMap_append, List.flatMap_assoc, flatMap_chars_linesOf, document,
        List.map_cons, intercalate_lineEnd, List.flatMap_map]
      simp only [hothers]

/-- Names and keys are written without quotes, and none is given twice. -/
structure Plain (sections : Sections) : Prop where
  names : ∀ part ∈ sections, Bare part.1.toList
  keys : ∀ part ∈ sections, ∀ setting ∈ part.2, Bare setting.1.toList
  namesOnce : (sections.map Prod.fst).Nodup
  keysOnce : ∀ part ∈ sections, (part.2.map Prod.fst).Nodup

theorem Plain.lines {sections : Sections} (hplain : sections.Plain) :
    ∀ line ∈ sections.lines, line.Plain := by
  have hpart : ∀ part ∈ sections, ∀ line ∈ linesOf part, line.Plain := by
    intro part hpart line hline
    rcases List.mem_cons.mp hline with rfl | hsetting
    · exact hplain.names part hpart
    · obtain ⟨setting, hmem, rfl⟩ := List.mem_map.mp hsetting
      exact hplain.keys part hpart setting hmem
  cases sections with
  | nil => exact fun line hline => absurd hline List.not_mem_nil
  | cons first others =>
      intro line hline
      rcases List.mem_append.mp hline with hfirst | hothers
      · exact hpart first List.mem_cons_self line hfirst
      · obtain ⟨part, hmem, hline⟩ := List.mem_flatMap.mp hothers
        rcases List.mem_cons.mp hline with rfl | hline
        · exact True.intro
        · exact hpart part (List.mem_cons_of_mem _ hmem) line hline

end Sections

/-! ## Building the tables -/

/-- The entries of a section. -/
def entriesOf (settings : List (String × Setting)) : Entries :=
  settings.map fun (key, value) => (key, value.toItem)

/-- The table of a section. -/
def headed (settings : List (String × Setting)) : Item := .table .header (entriesOf settings)

section NewName

variable {entries : Entries} {name : String}

theorem lookup_new (hnew : name ∉ entries.map Prod.fst) : entries.lookup name = none := by
  rw [List.lookup_eq_none_iff]
  intro entry hentry
  have hne : name ≠ entry.1 := fun hsame => hnew (hsame ▸ List.mem_map_of_mem hentry)
  exact bne_iff_ne.mpr hne

theorem lookup_last (hnew : name ∉ entries.map Prod.fst) (item : Item) :
    (entries ++ [(name, item)]).lookup name = some item := by
  rw [List.lookup_append, lookup_new hnew, Option.none_or, List.lookup_cons_self]

theorem replace_last (hnew : name ∉ entries.map Prod.fst) (item new : Item) :
    Entries.replace name new (entries ++ [(name, item)]) = entries ++ [(name, new)] := by
  induction entries with
  | nil => exact if_pos rfl
  | cons entry entries ih =>
      rw [List.map_cons, List.mem_cons, not_or] at hnew
      rw [List.cons_append, Entries.replace, if_neg (Ne.symm hnew.1), ih hnew.2]
      rfl

end NewName

theorem enter_new {progress : Progress} {name : String}
    (hnew : name ∉ progress.root.map Prod.fst) :
    progress.enter Entries.openTable [] name =
      some ⟨progress.root ++ [(name, headed [])], [name]⟩ := by
  simp only [Progress.enter, Entries.within, Entries.openTable, lookup_new hnew]
  rfl

theorem assign_headed {entries : Entries} {name key : String}
    (hnew : name ∉ entries.map Prod.fst) {settings : List (String × Setting)}
    (hkey : key ∉ settings.map Prod.fst) (value : Setting) :
    Progress.assign ⟨entries ++ [(name, headed settings)], [name]⟩ [] key value.toItem =
      some ⟨entries ++ [(name, headed (settings ++ [(key, value)]))], [name]⟩ := by
  have hkeys : key ∉ (entriesOf settings).map Prod.fst := by
    rw [entriesOf, List.map_map]
    exact hkey
  have hadd : Entries.addNew key value.toItem (entriesOf settings) =
      some (entriesOf (settings ++ [(key, value)])) := by
    rw [Entries.addNew, lookup_new hkeys, entriesOf, entriesOf, List.map_append]
    rfl
  have hwithin : Entries.within (Entries.assign key value.toItem []) [name]
      (entries ++ [(name, headed settings)]) =
        some (entries ++ [(name, headed (settings ++ [(key, value)]))]) := by
    rw [Entries.within, lookup_last hnew]
    simp only [headed, Entries.within, Entries.assign, hadd]
    exact congrArg some (replace_last hnew _ _)
  rw [Progress.assign, hwithin]
  rfl

namespace Sections

theorem foldlM_settings {entries : Entries} {name : String}
    (hnew : name ∉ entries.map Prod.fst) {given settings : List (String × Setting)}
    (honce : ((given ++ settings).map Prod.fst).Nodup) :
    (settings.map fun (key, value) => Line.setting name key value).foldlM Line.apply
        ⟨entries ++ [(name, headed given)], [name]⟩ =
      some ⟨entries ++ [(name, headed (given ++ settings))], [name]⟩ := by
  induction settings generalizing given with
  | nil => simp
  | cons setting settings ih =>
      obtain ⟨key, value⟩ := setting
      have hkey : key ∉ given.map Prod.fst := by
        rw [List.map_append, List.map_cons, List.nodup_append'] at honce
        exact fun hgiven => honce.2.2 hgiven List.mem_cons_self
      rw [List.map_cons, List.foldlM_cons, Line.apply, assign_headed hnew hkey]
      have hsettings := @ih (given ++ [(key, value)]) (by simpa using honce)
      rw [List.append_assoc] at hsettings
      exact hsettings

/-- **A section adds its table.** -/
theorem foldlM_linesOf {part : String × List (String × Setting)} {progress : Progress}
    (hnew : part.1 ∉ progress.root.map Prod.fst) (honce : (part.2.map Prod.fst).Nodup) :
    (linesOf part).foldlM Line.apply progress =
      some ⟨progress.root ++ [(part.1, headed part.2)], [part.1]⟩ := by
  rw [linesOf, List.foldlM_cons, Line.apply, enter_new hnew]
  exact @foldlM_settings _ _ hnew [] _ honce

end Sections

/-! ## Taking parts out -/

/-- What stays of a settings document. -/
structure Kept where
  /-- Whether a section stays. -/
  part : String → Bool
  /-- Whether a key stays in its section. -/
  key : String → String → Bool
  /-- Whether the empty line before a section stays. -/
  gap : String → Bool

namespace Kept

/-- Whether a line stays.  A section goes with all of its settings. -/
def line (kept : Kept) : Line → Bool
  | .gap name => kept.gap name
  | .header name => kept.part name
  | .setting name key _ => kept.part name && kept.key name key

/-- The settings of a section that stay when it does. -/
def settings (kept : Kept) (part : String × List (String × Setting)) : List (String × Setting) :=
  part.2.filter fun setting => kept.key part.1 setting.1

/-- Nothing is taken out. -/
def all : Kept := ⟨fun _ => true, fun _ _ => true, fun _ => true⟩

end Kept

namespace Sections

/-- The sections and settings that stay. -/
def keeping (sections : Sections) (kept : Kept) : Sections :=
  (sections.filter fun part => kept.part part.1).map fun part => (part.1, kept.settings part)

theorem keeping_cons (kept : Kept) (part : String × List (String × Setting))
    (sections : Sections) : keeping (part :: sections) kept =
      if kept.part part.1 then (part.1, kept.settings part) :: keeping sections kept
      else keeping sections kept := by
  cases hpart : kept.part part.1 <;> simp [keeping, hpart]

/-- What is left of a document. -/
def remaining (sections : Sections) (kept : Kept) : String :=
  String.ofList ((sections.lines.filter kept.line).flatMap Line.chars)

theorem filter_linesOf (kept : Kept) (part : String × List (String × Setting)) :
    (linesOf part).filter kept.line =
      if kept.part part.1 then linesOf (part.1, kept.settings part) else [] := by
  cases hpart : kept.part part.1 with
  | false =>
      rw [if_neg Bool.false_ne_true, List.filter_eq_nil_iff]
      intro line hline
      rcases List.mem_cons.mp hline with rfl | hsetting
      · simp [Kept.line, hpart]
      · obtain ⟨setting, -, rfl⟩ := List.mem_map.mp hsetting
        simp [Kept.line, hpart]
  | true =>
      have hheader : kept.line (.header part.1) = true := hpart
      rw [if_pos rfl, linesOf, List.filter_cons_of_pos hheader, List.filter_map]
      simp only [Function.comp_def, Kept.line, hpart, Bool.true_and]
      rfl

theorem foldlM_gap (kept : Kept) (name : String) (lines : List Line) (progress : Progress) :
    ((.gap name :: lines).filter kept.line).foldlM Line.apply progress =
      (lines.filter kept.line).foldlM Line.apply progress := by
  rw [List.filter_cons]
  split <;> rfl

/-- **The sections that stay add their tables** with the settings that stay. -/
theorem foldlM_filter (kept : Kept) {sections : Sections} {progress : Progress}
    (hnew : ∀ part ∈ sections, part.1 ∉ progress.root.map Prod.fst)
    (honce : (sections.map Prod.fst).Nodup)
    (hkeys : ∀ part ∈ sections, (part.2.map Prod.fst).Nodup) :
    ∃ current, ((sections.flatMap fun part => .gap part.1 :: linesOf part).filter kept.line).foldlM
        Line.apply progress =
      some ⟨progress.root ++ (sections.keeping kept).toEntries, current⟩ := by
  induction sections generalizing progress with
  | nil => exact ⟨progress.current, by simp [keeping, toEntries]⟩
  | cons part sections ih =>
      rw [List.map_cons, List.nodup_cons] at honce
      have hothers := fun other hother => hnew other (List.mem_cons_of_mem part hother)
      have hkeysOthers := fun other hother => hkeys other (List.mem_cons_of_mem part hother)
      rw [List.flatMap_cons, List.cons_append, foldlM_gap, List.filter_append,
        List.foldlM_append, filter_linesOf, keeping_cons]
      cases kept.part part.1 with
      | false => exact ih hothers honce.2 hkeysOthers
      | true =>
          have hsettings : ((kept.settings part).map Prod.fst).Nodup :=
            (List.filter_sublist.map Prod.fst).nodup (hkeys part List.mem_cons_self)
          have hadded : (linesOf (part.1, kept.settings part)).foldlM Line.apply progress =
              some ⟨progress.root ++ [(part.1, headed (kept.settings part))], [part.1]⟩ :=
            foldlM_linesOf (hnew part List.mem_cons_self) hsettings
          have hfresh : ∀ other ∈ sections, other.1 ∉ (progress.root ++
              [(part.1, headed (kept.settings part))]).map Prod.fst := by
            intro other hother
            rw [List.map_append, List.mem_append, not_or]
            refine ⟨hothers other hother, fun hsame => honce.1 ?_⟩
            rw [← List.mem_singleton.mp hsame]
            exact List.mem_map_of_mem hother
          obtain ⟨current, hrest⟩ := @ih ⟨_, [part.1]⟩ hfresh honce.2 hkeysOthers
          refine ⟨current, ?_⟩
          rw [if_pos rfl, if_pos rfl, hadded]
          refine hrest.trans ?_
          rw [List.append_assoc]
          rfl

/-- **What is left of a document is read** as the sections and settings that stay. -/
theorem read_remaining {sections : Sections} (hplain : sections.Plain) (kept : Kept) :
    read (sections.remaining kept) = some (sections.keeping kept).toEntries := by
  have hlines : ∀ line ∈ sections.lines.filter kept.line, line.Plain :=
    fun line hline => hplain.lines line (List.mem_of_mem_filter hline)
  have hfold : (sections.lines.filter kept.line).foldlM Line.apply {} =
      ((sections.flatMap fun part => .gap part.1 :: linesOf part).filter kept.line).foldlM
        Line.apply {} := by
    cases sections with
    | nil => rfl
    | cons first others => exact (foldlM_gap kept first.1 _ {}).symm
  obtain ⟨current, hread⟩ := @foldlM_filter kept sections {} (by simp) hplain.namesOnce
    hplain.keysOnce
  rw [remaining, read_lines hlines, hfold, hread]
  rfl

theorem remaining_all (sections : Sections) : sections.remaining .all = sections.render := by
  have hall : ∀ line ∈ sections.lines, Kept.all.line line = true := by
    intro line _
    cases line <;> rfl
  rw [remaining, List.filter_eq_self.mpr hall, flatMap_chars_lines, render]

theorem entriesOf_settings (kept : Kept) (part : String × List (String × Setting)) :
    entriesOf (kept.settings part) = (entriesOf part.2).filter (kept.key part.1 ·.1) := by
  rw [entriesOf, entriesOf, List.filter_map]
  rfl

/-- The sections that stay, as entries. -/
theorem toEntries_keeping (sections : Sections) (kept : Kept) :
    (sections.keeping kept).toEntries =
      (sections.map fun part => (part.1, headed (kept.settings part))).filter (kept.part ·.1) := by
  rw [keeping, toEntries, List.map_map, List.filter_map]
  rfl

end Sections

end ProgramGraphs.Toml
