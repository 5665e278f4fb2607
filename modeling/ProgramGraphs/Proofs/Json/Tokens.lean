import Mathlib.Data.List.Basic
import ProgramGraphs.Json.Token
import ProgramGraphs.Json.Value

/-!
# The tokens of a printed value

Tokens are cut off one at a time: a blank leaves no trace, and a token that is whole
stands in front of the tokens of what follows it (`ofSymbols_token`).  An escaped text
gives back its characters, in whichever of the three ways each of them is written
(`scanText_escaped`).
-/

namespace ProgramGraphs.Json

namespace Token

variable {symbol : Symbol} {rest after : List Symbol} {token : Token}

/-! ## One token at a time -/

/-- What was found before only stands in front. -/
theorem scanAll_eq_append (found : List Token) (symbols : List Symbol) :
    scanAll found symbols = found.reverse ++ ofSymbols symbols := by
  -- scanning skips whole tokens, so the induction is on the length of the row
  induction hlength : symbols.length using Nat.strongRecOn generalizing found symbols with
  | ind length ih =>
      cases symbols with
      | nil => simp [ofSymbols, scanAll]
      | cons symbol rest =>
          rw [List.length_cons] at hlength
          rw [ofSymbols, scanAll, scanAll]
          split
          · exact ih rest.length (by omega) found rest rfl
          · split
            rename_i token after hscan
            have hle : after.length ≤ rest.length := by
              have hscanned := scan_length_le symbol rest
              rwa [hscan] at hscanned
            have hlt : after.length < length := by omega
            split
            · rw [List.reverse_cons, List.reverse_singleton]
            · rw [ih _ hlt _ after rfl, ih _ hlt [token] after rfl, List.reverse_cons,
                List.append_assoc, List.reverse_singleton]

theorem ofSymbols_blank (hblank : isBlank symbol = true) :
    ofSymbols (symbol :: rest) = ofSymbols rest := by
  rw [ofSymbols, scanAll, if_pos hblank]
  rfl

theorem ofSymbols_token (hblank : isBlank symbol = false)
    (hscan : scan symbol rest = (token, after)) (hwhole : token.breaks = false) :
    ofSymbols (symbol :: rest) = token :: ofSymbols after := by
  rw [ofSymbols, scanAll, if_neg (by simp [hblank])]
  split
  rename_i found following hfound
  rw [hscan] at hfound
  obtain ⟨rfl, rfl⟩ := Prod.mk.inj hfound
  rw [if_neg (by simp [hwhole]), scanAll_eq_append]
  rfl

/-! ## Quoted texts -/

/-- The symbols of a text that was decoded without errors. -/
def symbolsOf (text : List Char) : List Symbol := text.map .char

@[simp] theorem symbolsOf_cons (c : Char) (text : List Char) :
    symbolsOf (c :: text) = .char c :: symbolsOf text := rfl

@[simp] theorem symbolsOf_append (first second : List Char) :
    symbolsOf (first ++ second) = symbolsOf first ++ symbolsOf second :=
  List.map_append

theorem hexEscape_hexDigit {n : Nat} (hlt : n < 32) (rest : List Symbol) :
    hexEscape (symbolsOf ['0', '0', hexDigit (n / 16), hexDigit (n % 16)] ++ rest) = .ok n := by
  have htake : (symbolsOf ['0', '0', hexDigit (n / 16), hexDigit (n % 16)] ++ rest).take 4 =
      symbolsOf ['0', '0', hexDigit (n / 16), hexDigit (n % 16)] := rfl
  have hfour : ∀ n < 32,
      hexEscape (symbolsOf ['0', '0', hexDigit (n / 16), hexDigit (n % 16)]) = .ok n := by
    decide
  rw [hexEscape, htake]
  exact hfour n hlt

theorem scanText_simpleEscape (state : TextState) {letter meant : Char}
    (hmeant : simpleEscape? letter = some meant) (rest : List Symbol) :
    scanText state (symbolsOf ['\\', letter] ++ rest) = scanText (state.push meant) rest := by
  have hletter : letter ≠ 'u' := by
    rintro rfl
    contradiction
  have hquote : symbolsOf ['\\', letter] ++ rest = .char '\\' :: .char letter :: rest := rfl
  rw [hquote, scanText]
  · rw [hmeant]
  · simpa using hletter

theorem scanText_numericEscape (state : TextState) {c : Char} (hlt : c.toNat < 32)
    (rest : List Symbol) :
    scanText state (symbolsOf ['\\', 'u', '0', '0',
        hexDigit (c.toNat / 16), hexDigit (c.toNat % 16)] ++ rest) =
      scanText (state.push c) rest := by
  have hescape := hexEscape_hexDigit hlt rest
  have hmeant : unicodeEscape (symbolsOf ['0', '0', hexDigit (c.toNat / 16),
      hexDigit (c.toNat % 16)] ++ rest) = .char c 0 := by
    simp only [unicodeEscape, hescape]
    rw [if_neg (by omega), if_neg (by omega), Char.ofNat_toNat]
  have hstart : symbolsOf ['\\', 'u', '0', '0', hexDigit (c.toNat / 16), hexDigit (c.toNat % 16)] ++
      rest = .char '\\' :: .char 'u' :: (symbolsOf ['0', '0', hexDigit (c.toNat / 16),
        hexDigit (c.toNat % 16)] ++ rest) := rfl
  rw [hstart, scanText, hmeant]
  rfl

/-- One character, however it was written. -/
theorem scanText_escapeChar (state : TextState) (c : Char) (rest : List Symbol) :
    scanText state (symbolsOf (escapeChar c) ++ rest) = scanText (state.push c) rest := by
  unfold escapeChar
  split_ifs with hquote hbackslash hnewline hreturn htab hbackspace hfeed hcontrol
  · subst hquote
    exact scanText_simpleEscape state rfl rest
  · subst hbackslash
    exact scanText_simpleEscape state rfl rest
  · subst hnewline
    exact scanText_simpleEscape state rfl rest
  · subst hreturn
    exact scanText_simpleEscape state rfl rest
  · subst htab
    exact scanText_simpleEscape state rfl rest
  · subst hbackspace
    exact scanText_simpleEscape state rfl rest
  · subst hfeed
    exact scanText_simpleEscape state rfl rest
  · exact scanText_numericEscape state hcontrol rest
  · have hplain : symbolsOf [c] ++ rest = .char c :: rest := rfl
    rw [hplain, scanText]
    · rw [if_neg hcontrol]
    all_goals simp_all

/-- **An escaped text gives back its characters.** -/
theorem scanText_escaped (state : TextState) (text : List Char) (rest : List Symbol) :
    scanText state (symbolsOf (text.flatMap escapeChar) ++ .char '"' :: rest) =
      (({ state with reversed := text.reverse ++ state.reversed } : TextState).closed, rest) := by
  induction text generalizing state with
  | nil => rw [List.flatMap_nil, symbolsOf, List.map_nil, List.nil_append, scanText]; rfl
  | cons c text ih =>
      rw [List.flatMap_cons, symbolsOf_append, List.append_assoc, scanText_escapeChar, ih,
        List.reverse_cons, List.append_assoc]
      rfl

theorem ofSymbols_quoteChars (text : String) (rest : List Symbol) :
    ofSymbols (symbolsOf (quoteChars text) ++ rest) = .text (some text) :: ofSymbols rest := by
  have hscan : scan (.char '"') (symbolsOf (text.toList.flatMap escapeChar) ++ .char '"' :: rest) =
      (.text (some text), rest) := by
    rw [scan, scanText_escaped]
    simp [TextState.closed]
  have hquoted : symbolsOf (quoteChars text) ++ rest =
      .char '"' :: (symbolsOf (text.toList.flatMap escapeChar) ++ .char '"' :: rest) := by
    simp [quoteChars, symbolsOf]
  rw [hquoted, ofSymbols_token (by decide) hscan rfl]

end Token

end ProgramGraphs.Json
