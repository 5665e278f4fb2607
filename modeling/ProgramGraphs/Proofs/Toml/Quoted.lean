import Mathlib.Tactic.SplitIfs
import ProgramGraphs.Toml.Quoted
import ProgramGraphs.Toml.Text

/-!
# Quoted texts are read back

A text is written in one of four styles, and in each of them the reader stops at the
quotes that the writer put at the end (`any_quote`).  Between double quotes this needs an
escape for every character that cannot stand for itself (`Spelling`).  Where three quotes
enclose a text, up to two quotes may stand in a row, also directly before the closing
ones, and the reader counts all of them at once:

```text
text   between three quotes    quotes in a row
"      """" ."""               1, and 3 that close
""     """"" """               2, and 3 that close
"""    """"" \""""             2, and one with a backslash
```

So the induction carries a row of quotes that were written and not read yet.
-/

namespace ProgramGraphs.Toml

open Scan (isPrintable)
open ProgramGraphs.Toml.Text (basic literal multiBasic multiLiteral push isBasic isLiteral)

/-- What may follow a quoted text. -/
def EndsText (rest : List Char) : Prop :=
  ∀ c following, rest = c :: following → c ≠ '"' ∧ c ≠ '\''

/-! ## Characters -/

/-- How a character that is no quote and no line end is spelled between double quotes. -/
inductive Spelling (c : Char) : List Char → Prop where
  /-- It stands for itself. -/
  | plain (hbasic : isBasic c = true) (hreturn : c ≠ '\r') : Spelling c [c]
  | simple (mark : Char) (hmark : Text.simpleEscape? mark = some c) : Spelling c ['\\', mark]
  | numbered (first second : Char) (hmeant : Text.numbered? ['0', '0', first, second] = some c) :
      Spelling c ['\\', 'u', '0', '0', first, second]

theorem ne_of_isBasic {c : Char} (hbasic : isBasic c = true) : c ≠ '"' ∧ c ≠ '\\' := by
  constructor <;> rintro rfl <;> contradiction

theorem ne_of_simpleEscape? {mark c : Char} (hmark : Text.simpleEscape? mark = some c) :
    mark ≠ 'u' ∧ mark ≠ 'U' := by
  constructor <;> rintro rfl <;> contradiction

theorem isPrintable_of_not_isControl {c : Char} (hcontrol : Quoted.isControl c = false)
    (hline : c ≠ '\n') : isPrintable c = true := by
  simp [Quoted.isControl, isPrintable] at hcontrol ⊢
  by_cases htab : c = '\t'
  · exact Or.inl htab
  · exact Or.inr ⟨Nat.not_lt.mp fun hlt => hline (hcontrol.1 hlt htab), hcontrol.2⟩

theorem numbered?_hexDigits {c : Char} (hcontrol : Quoted.isControl c = true) :
    Text.numbered? ['0', '0', Quoted.hexDigit (c.toNat / 16), Quoted.hexDigit (c.toNat % 16)] =
      some c := by
  have hlt : c.toNat < 128 := by
    simp [Quoted.isControl] at hcontrol
    omega
  have hall : ∀ n < 128, Text.numbered? ['0', '0', Quoted.hexDigit (n / 16),
      Quoted.hexDigit (n % 16)] = some (Char.ofNat n) := by
    decide
  rw [hall c.toNat hlt, Char.ofNat_toNat]

theorem spelling_escape? {c : Char} (hquote : c ≠ '"') (hline : c ≠ '\n') :
    Spelling c ((Quoted.escape? c).getD [c]) := by
  unfold Quoted.escape?
  split_ifs with hback htab hform hreturn hslash hcontrol
  · subst hback
    exact .simple 'b' rfl
  · subst htab
    exact .simple 't' rfl
  · subst hform
    exact .simple 'f' rfl
  · subst hreturn
    exact .simple 'r' rfl
  · subst hslash
    exact .simple '\\' rfl
  · exact .numbered _ _ (numbered?_hexDigits hcontrol)
  · have hprintable := isPrintable_of_not_isControl (Bool.eq_false_iff.mpr hcontrol) hline
    exact .plain (by simp [isBasic, hprintable, hquote, hslash]) hreturn

theorem Spelling.exists_cons {c : Char} {spelled : List Char} (hspelled : Spelling c spelled) :
    ∃ first more, spelled = first :: more ∧ first ≠ '"' ∧ first ≠ '\n' ∧ first ≠ '\r' := by
  cases hspelled with
  | plain hbasic hreturn =>
      have hline : c ≠ '\n' := by
        rintro rfl
        contradiction
      exact ⟨c, [], rfl, (ne_of_isBasic hbasic).1, hline, hreturn⟩
  | simple mark hmark => exact ⟨'\\', _, rfl, by decide⟩
  | numbered first second hmeant => exact ⟨'\\', _, rfl, by decide⟩

/-! ## Texts of one line -/

theorem basic_spelling {c : Char} {spelled : List Char} (hspelled : Spelling c spelled)
    (rest : List Char) : basic (spelled ++ rest) = push c (basic rest) := by
  cases hspelled with
  | plain hbasic hreturn =>
      obtain ⟨hquote, hslash⟩ := ne_of_isBasic hbasic
      rw [List.singleton_append, basic, if_pos hbasic] <;> simp_all
  | simple mark hmark =>
      obtain ⟨hshort, hlong⟩ := ne_of_simpleEscape? hmark
      rw [List.cons_append, List.singleton_append, basic, hmark]
      · rfl
      · simp_all
      · simp_all
  | numbered first second hmeant =>
      simp only [List.cons_append, List.nil_append]
      rw [basic, hmeant]
      rfl

theorem exists_escaped_cons (c : Char) (text : List Char) :
    ∃ spelled, Spelling c spelled ∧
      Quoted.escaped 0 false 0 (c :: text) = spelled ++ Quoted.escaped 0 false 0 text := by
  by_cases hquote : c = '"'
  · subst hquote
    exact ⟨_, .simple '"' rfl, rfl⟩
  by_cases hline : c = '\n'
  · subst hline
    exact ⟨_, .simple 'n' rfl, rfl⟩
  · refine ⟨_, spelling_escape? hquote hline, ?_⟩
    rw [Quoted.escaped, if_neg hquote, if_neg hline]

theorem basic_escaped (text rest : List Char) :
    basic (Quoted.escaped 0 false 0 text ++ '"' :: rest) = some (text, rest) := by
  induction text with
  | nil => rfl
  | cons c text ih =>
      obtain ⟨spelled, hspelled, hescaped⟩ := exists_escaped_cons c text
      rw [hescaped, List.append_assoc, basic_spelling hspelled, ih]
      rfl

theorem literal_plain {text : List Char} (hplain : ∀ c ∈ text, isLiteral c = true)
    (rest : List Char) : literal (text ++ '\'' :: rest) = some (text, rest) := by
  induction text with
  | nil => rfl
  | cons c text ih =>
      have hc := hplain c List.mem_cons_self
      have hquote : c ≠ '\'' := by
        rintro rfl
        contradiction
      rw [List.cons_append, literal, if_pos hc, ih fun d hd => hplain d (List.mem_cons_of_mem _ hd)]
      · rfl
      · simp_all

/-! ## Texts of several lines -/

/-- Puts characters in front of a text that was taken. -/
def pushAll (first : List Char) (taken : Option (List Char × List Char)) :
    Option (List Char × List Char) :=
  taken.map fun (text, rest) => (first ++ text, rest)

/-- How a reader of a text of several lines goes on at a quote: three of them close the
text, and up to two more that stand before them belong to it. -/
structure ReadsQuotes (quote : Char) (read : List Char → Option (List Char × List Char)) :
    Prop where
  inside : ∀ rest, (∀ following, rest ≠ quote :: quote :: following) →
    read (quote :: rest) = push quote (read rest)
  three : ∀ rest, (∀ following, rest ≠ quote :: following) →
    read (quote :: quote :: quote :: rest) = some ([], rest)
  four : ∀ rest, (∀ following, rest ≠ quote :: following) →
    read (quote :: quote :: quote :: quote :: rest) = some ([quote], rest)
  five : ∀ rest, read (quote :: quote :: quote :: quote :: quote :: rest) =
    some ([quote, quote], rest)

namespace ReadsQuotes

variable {quote : Char} {read : List Char → Option (List Char × List Char)}

/-- Quotes that do not close the text. -/
theorem quotes (hreads : ReadsQuotes quote read) {run : Nat} (hrun : run ≤ 2) {c : Char}
    (hquote : c ≠ quote) (rest : List Char) :
    read (List.replicate run quote ++ c :: rest) =
      pushAll (List.replicate run quote) (read (c :: rest)) := by
  have hone : read (quote :: c :: rest) = push quote (read (c :: rest)) :=
    hreads.inside _ fun _ hsame => hquote (List.cons.inj hsame).1
  have htwo : read (quote :: quote :: c :: rest) = push quote (read (quote :: c :: rest)) :=
    hreads.inside _ fun _ hsame => hquote (List.cons.inj (List.cons.inj hsame).2).1
  match run, hrun with
  | 0, _ => simp [pushAll]
  | 1, _ => exact hone
  | 2, _ =>
      refine htwo.trans ?_
      rw [hone]
      cases read (c :: rest) <;> rfl

/-- All quotes are read at once where three of them close the text. -/
theorem closing (hreads : ReadsQuotes quote read) {run : Nat} (hrun : run ≤ 2) {rest : List Char}
    (hends : ∀ following, rest ≠ quote :: following) :
    read (List.replicate run quote ++ quote :: quote :: quote :: rest) =
      some (List.replicate run quote, rest) :=
  match run, hrun with
  | 0, _ => hreads.three rest hends
  | 1, _ => hreads.four rest hends
  | 2, _ => hreads.five rest

/-- A character that ends a row of quotes. -/
theorem next (hreads : ReadsQuotes quote read) {run : Nat} (hrun : run ≤ 2) {c first : Char}
    (hfirst : first ≠ quote) (more : List Char)
    (hspelled : ∀ rest, read (first :: more ++ rest) = push c (read rest))
    {written text rest : List Char} (hread : read written = some (text, rest)) :
    read (List.replicate run quote ++ (first :: more ++ written)) =
      some (List.replicate run quote ++ c :: text, rest) := by
  rw [List.cons_append, hreads.quotes hrun hfirst, ← List.cons_append, hspelled, hread]
  rfl

end ReadsQuotes

theorem readsQuotes_multiBasic : ReadsQuotes '"' (multiBasic false) where
  inside rest hrest := by rw [multiBasic] <;> simp_all
  three rest hrest := by rw [multiBasic] <;> simp_all
  four rest hrest := by rw [multiBasic]; simp_all
  five _ := rfl

theorem readsQuotes_multiLiteral : ReadsQuotes '\'' multiLiteral where
  inside rest hrest := by rw [multiLiteral] <;> simp_all
  three rest hrest := by rw [multiLiteral] <;> simp_all
  four rest hrest := by rw [multiLiteral]; simp_all
  five _ := rfl

theorem multiBasic_spelling {c : Char} {spelled : List Char} (hspelled : Spelling c spelled)
    (rest : List Char) : multiBasic false (spelled ++ rest) = push c (multiBasic false rest) := by
  cases hspelled with
  | plain hbasic hreturn =>
      obtain ⟨hquote, hslash⟩ := ne_of_isBasic hbasic
      have hline : c ≠ '\n' := by
        rintro rfl
        contradiction
      rw [List.singleton_append, multiBasic, Bool.false_and, if_neg Bool.false_ne_true,
        if_pos hbasic]
      all_goals simp_all
  | simple mark hmark =>
      obtain ⟨hshort, hlong⟩ := ne_of_simpleEscape? hmark
      rw [List.cons_append, List.singleton_append, multiBasic, hmark]
      · simp_all
      · simp_all
  | numbered first second hmeant =>
      simp only [List.cons_append, List.nil_append]
      rw [multiBasic, hmeant]
      rfl

theorem multiBasic_lineEnd (rest : List Char) :
    multiBasic false ('\n' :: rest) = push '\n' (multiBasic false rest) := by
  rw [multiBasic]
  rfl

/-- **A text between three double quotes is read back**, after a row of quotes that belong
to it. -/
theorem multiBasic_escaped (text : List Char) {run : Nat} (hrun : run ≤ 2) {rest : List Char}
    (hends : EndsText rest) :
    multiBasic false (List.replicate run '"' ++
        (Quoted.escaped 2 true run text ++ '"' :: '"' :: '"' :: rest)) =
      some (List.replicate run '"' ++ text, rest) := by
  have hreads := readsQuotes_multiBasic
  induction text generalizing run with
  | nil =>
      rw [Quoted.escaped, List.nil_append, List.append_nil]
      exact hreads.closing hrun fun _ hrest => (hends _ _ hrest).1 rfl
  | cons c text ih =>
      have hnext := ih (Nat.zero_le 2)
      rw [List.replicate_zero, List.nil_append, List.nil_append] at hnext
      by_cases hquote : c = '"'
      · subst hquote
        by_cases hmore : run < 2
        · have hlonger := ih hmore
          rw [List.replicate_succ', List.append_assoc, List.append_assoc] at hlonger
          rw [Quoted.escaped, if_pos rfl, if_pos hmore]
          exact hlonger
        · rw [Quoted.escaped, if_pos rfl, if_neg hmore]
          exact hreads.next hrun (by decide) _ (multiBasic_spelling (.simple '"' rfl)) hnext
      by_cases hline : c = '\n'
      · subst hline
        rw [Quoted.escaped, if_neg hquote, if_pos rfl, if_pos rfl]
        exact hreads.next hrun hquote [] multiBasic_lineEnd hnext
      · have hspelled := spelling_escape? hquote hline
        obtain ⟨first, more, hcons, hfirst, -⟩ := hspelled.exists_cons
        rw [Quoted.escaped, if_neg hquote, if_neg hline, List.append_assoc, hcons]
        exact hreads.next hrun hfirst more (hcons ▸ multiBasic_spelling hspelled) hnext

theorem multiLiteral_cons {c : Char} (hquote : c ≠ '\'') (hc : isPrintable c = true ∨ c = '\n')
    (rest : List Char) : multiLiteral (c :: rest) = push c (multiLiteral rest) := by
  rcases hc with hc | rfl
  · have hliteral : isLiteral c = true := by simp [isLiteral, hc, hquote]
    have hline : c ≠ '\n' ∧ c ≠ '\r' := by constructor <;> rintro rfl <;> contradiction
    rw [multiLiteral, if_pos hliteral] <;> simp_all
  · rw [multiLiteral]

/-- **A text between three single quotes is read back**, after a row of quotes that belong
to it: no row of quotes in it is longer than two. -/
theorem multiLiteral_plain {text : List Char} (hplain : ∀ c ∈ text, isPrintable c = true ∨ c = '\n')
    {run : Nat} (hruns : Quoted.longestRun '\'' run text ≤ 2) {rest : List Char}
    (hends : EndsText rest) :
    multiLiteral (List.replicate run '\'' ++ (text ++ '\'' :: '\'' :: '\'' :: rest)) =
      some (List.replicate run '\'' ++ text, rest) := by
  have hreads := readsQuotes_multiLiteral
  induction text generalizing run with
  | nil =>
      rw [List.nil_append, List.append_nil]
      exact hreads.closing hruns fun _ hrest => (hends _ _ hrest).2 rfl
  | cons c text ih =>
      have ih := fun {run} => @ih (fun d hd => hplain d (List.mem_cons_of_mem _ hd)) run
      rw [Quoted.longestRun] at hruns
      by_cases hquote : c = '\''
      · subst hquote
        rw [if_pos rfl] at hruns
        have hlonger := ih hruns
        rw [List.replicate_succ', List.append_assoc, List.append_assoc] at hlonger
        exact hlonger
      · rw [if_neg hquote, Nat.max_le] at hruns
        have hnext := ih hruns.2
        rw [List.replicate_zero, List.nil_append, List.nil_append] at hnext
        exact hreads.next hruns.1 hquote []
          (multiLiteral_cons hquote (hplain c List.mem_cons_self)) hnext

/-! ## All styles -/

theorem trimNewline_opening (text : List Char) {rest : List Char}
    (hrest : '\n' ∉ text → ∀ c following, rest = c :: following → c ≠ '\n' ∧ c ≠ '\r') :
    Text.trimNewline (Quoted.opening text ++ rest) = rest := by
  unfold Quoted.opening
  split_ifs with hline
  · rfl
  · have hstart := hrest (by simpa using hline)
    rw [List.nil_append]
    unfold Text.trimNewline
    split
    · exact absurd rfl (hstart _ _ rfl).1
    · exact absurd rfl (hstart _ _ rfl).2
    · rfl

theorem le_longestRun (c : Char) (before : Nat) (text : List Char) :
    before ≤ Quoted.longestRun c before text := by
  induction text generalizing before with
  | nil => exact Nat.le_refl before
  | cons first text ih =>
      rw [Quoted.longestRun]
      split
      · exact Nat.le_of_succ_le (ih (before + 1))
      · exact Nat.le_max_left ..

theorem longestRun_pos {c : Char} {text : List Char} (hmem : c ∈ text) (before : Nat) :
    0 < Quoted.longestRun c before text := by
  induction text generalizing before with
  | nil => exact absurd hmem List.not_mem_nil
  | cons first text ih =>
      rw [Quoted.longestRun]
      split
      · exact Nat.lt_of_lt_of_le (Nat.succ_pos before) (le_longestRun c (before + 1) text)
      · rename_i hfirst
        have hrest : c ∈ text := (List.mem_cons.mp hmem).resolve_left (Ne.symm hfirst)
        exact Nat.lt_of_lt_of_le (ih hrest 0) (Nat.le_max_right ..)

/-- What is written without escapes on one line. -/
theorem of_style_literal {text : List Char} (hstyle : Quoted.style text = .literal) :
    ∀ c ∈ text, isLiteral c = true := by
  obtain ⟨hcontrols, hsingle, hline⟩ : (∀ c ∈ text, Quoted.isControl c = false) ∧
      Quoted.longestRun '\'' 0 text = 0 ∧ '\n' ∉ text := by
    unfold Quoted.style at hstyle
    dsimp only at hstyle
    split_ifs at hstyle with hbasic hliteral
    simpa [and_assoc] using hliteral
  intro c hc
  have hprintable := isPrintable_of_not_isControl (hcontrols c hc) (ne_of_mem_of_not_mem hc hline)
  have hquote : c ≠ '\'' := by
    rintro rfl
    exact Nat.ne_of_gt (longestRun_pos hc 0) hsingle
  simp [isLiteral, hprintable, hquote]

/-- What is written without escapes on several lines. -/
theorem of_style_multiLiteral {text : List Char} (hstyle : Quoted.style text = .multiLiteral) :
    (∀ c ∈ text, isPrintable c = true ∨ c = '\n') ∧ Quoted.longestRun '\'' 0 text ≤ 2 := by
  obtain ⟨hcontrols, hruns⟩ : (∀ c ∈ text, Quoted.isControl c = false) ∧
      Quoted.longestRun '\'' 0 text ≤ 2 := by
    unfold Quoted.style at hstyle
    dsimp only at hstyle
    split_ifs at hstyle with hbasic hliteral hmulti hmultiLiteral
    simpa using hmultiLiteral
  refine ⟨fun c hc => ?_, hruns⟩
  by_cases hline : c = '\n'
  · exact Or.inr hline
  · exact Or.inl (isPrintable_of_not_isControl (hcontrols c hc) hline)

theorem any_double {written : List Char} (hopen : ∀ following, written ≠ '"' :: '"' :: following) :
    Text.any ('"' :: written) = basic written := by
  unfold Text.any
  split
  · rename_i hsame
    exact absurd (List.cons.inj hsame).2 (hopen _)
  · rename_i hsame
    exact absurd (List.cons.inj hsame).1 (by decide)
  · rfl

theorem any_single {written : List Char}
    (hopen : ∀ following, written ≠ '\'' :: '\'' :: following) :
    Text.any ('\'' :: written) = literal written := by
  unfold Text.any
  split
  · rename_i hsame
    exact absurd (List.cons.inj hsame).1 (by decide)
  · rename_i hsame
    exact absurd (List.cons.inj hsame).2 (hopen _)
  · rfl

theorem any_basic (text : List Char) {rest : List Char} (hends : EndsText rest) :
    Text.any (Quoted.inStyle text .basic ++ rest) = some (text, rest) := by
  have hopen : ∀ following,
      Quoted.escaped 0 false 0 text ++ '"' :: rest ≠ '"' :: '"' :: following := by
    intro following hsame
    cases text with
    | nil => exact (hends _ _ (List.cons.inj hsame).2).1 rfl
    | cons c text =>
        obtain ⟨spelled, hspelled, hescaped⟩ := exists_escaped_cons c text
        obtain ⟨first, more, rfl, hfirst, -⟩ := hspelled.exists_cons
        rw [hescaped] at hsame
        exact hfirst (List.cons.inj hsame).1
  have hwritten : Quoted.inStyle text .basic ++ rest =
      '"' :: (Quoted.escaped 0 false 0 text ++ '"' :: rest) := by
    simp [Quoted.inStyle]
  rw [hwritten, any_double hopen, basic_escaped]

theorem any_literal {text : List Char} (hplain : ∀ c ∈ text, isLiteral c = true)
    {rest : List Char} (hends : EndsText rest) :
    Text.any (Quoted.inStyle text .literal ++ rest) = some (text, rest) := by
  have hopen : ∀ following, text ++ '\'' :: rest ≠ '\'' :: '\'' :: following := by
    intro following hsame
    cases text with
    | nil => exact (hends _ _ (List.cons.inj hsame).2).2 rfl
    | cons c text =>
        have hquote : isLiteral '\'' = true :=
          (List.cons.inj hsame).1 ▸ hplain c List.mem_cons_self
        contradiction
  have hwritten : Quoted.inStyle text .literal ++ rest = '\'' :: (text ++ '\'' :: rest) := by
    simp [Quoted.inStyle]
  rw [hwritten, any_single hopen, literal_plain hplain]

theorem escaped_start {text rest : List Char} (hline : '\n' ∉ text) :
    ∀ c following, Quoted.escaped 2 true 0 text ++ '"' :: rest = c :: following →
      c ≠ '\n' ∧ c ≠ '\r' := by
  intro c following hsame
  cases text with
  | nil =>
      obtain rfl := (List.cons.inj hsame).1
      decide
  | cons d text =>
      by_cases hquote : d = '"'
      · subst hquote
        obtain rfl := (List.cons.inj hsame).1
        decide
      · have hd : d ≠ '\n' := fun hd => hline (hd ▸ List.mem_cons_self)
        obtain ⟨first, more, hcons, -, hfirst⟩ := (spelling_escape? hquote hd).exists_cons
        rw [Quoted.escaped, if_neg hquote, if_neg hd, hcons] at hsame
        obtain rfl := (List.cons.inj hsame).1
        exact hfirst

theorem any_multiBasic (text : List Char) {rest : List Char} (hends : EndsText rest) :
    Text.any (Quoted.inStyle text .multiBasic ++ rest) = some (text, rest) := by
  have hwritten : Quoted.inStyle text .multiBasic ++ rest =
      '"' :: '"' :: '"' :: (Quoted.opening text ++
        (Quoted.escaped 2 true 0 text ++ '"' :: '"' :: '"' :: rest)) := by
    simp [Quoted.inStyle]
  have hany : ∀ written, Text.any ('"' :: '"' :: '"' :: written) =
      multiBasic false (Text.trimNewline written) := fun _ => rfl
  rw [hwritten, hany, trimNewline_opening text escaped_start]
  exact multiBasic_escaped text (Nat.zero_le 2) hends

theorem any_multiLiteral {text : List Char} (hplain : ∀ c ∈ text, isPrintable c = true ∨ c = '\n')
    (hruns : Quoted.longestRun '\'' 0 text ≤ 2) {rest : List Char} (hends : EndsText rest) :
    Text.any (Quoted.inStyle text .multiLiteral ++ rest) = some (text, rest) := by
  have hwritten : Quoted.inStyle text .multiLiteral ++ rest =
      '\'' :: '\'' :: '\'' :: (Quoted.opening text ++
        (text ++ '\'' :: '\'' :: '\'' :: rest)) := by
    simp [Quoted.inStyle]
  have hany : ∀ written, Text.any ('\'' :: '\'' :: '\'' :: written) =
      multiLiteral (Text.trimNewline written) := fun _ => rfl
  have hstart : '\n' ∉ text → ∀ c following,
      text ++ '\'' :: '\'' :: '\'' :: rest = c :: following → c ≠ '\n' ∧ c ≠ '\r' := by
    intro hline c following hsame
    cases text with
    | nil =>
        obtain rfl := (List.cons.inj hsame).1
        decide
    | cons d text =>
        obtain rfl := (List.cons.inj hsame).1
        have hd : d ≠ '\n' := fun hd => hline (hd ▸ List.mem_cons_self)
        refine ⟨hd, ?_⟩
        rintro rfl
        exact absurd (hplain _ List.mem_cons_self) (by decide)
  rw [hwritten, hany, trimNewline_opening text hstart]
  exact multiLiteral_plain hplain hruns hends

/-- **Every quoted text is read back**, whatever its characters are. -/
theorem any_quote (text : List Char) {rest : List Char} (hends : EndsText rest) :
    Text.any (Quoted.quote text ++ rest) = some (text, rest) := by
  unfold Quoted.quote
  cases hstyle : Quoted.style text with
  | basic => exact any_basic text hends
  | literal => exact any_literal (of_style_literal hstyle) hends
  | multiBasic => exact any_multiBasic text hends
  | multiLiteral =>
      obtain ⟨hplain, hruns⟩ := of_style_multiLiteral hstyle
      exact any_multiLiteral hplain hruns hends

end ProgramGraphs.Toml
