import ProgramGraphs.Proofs.Decimal.Text
import ProgramGraphs.Proofs.Json.Tokens

/-!
# Printed numbers

An integer is printed as a numeral without fraction, and a double that is a whole
number as one with a single zero behind the point.  Both come out of the scanner
as they were written (`ofSymbols_integer`, `ofSymbols_float`), provided that the
text goes on with nothing that could belong to a number.

Reading a numeral as the double nearest to it gives back the whole number
(`exactNode_ofFloat`).
-/

namespace ProgramGraphs.Json

open Decimal (IsWhole hasSign signed)

/-! ## Numerals -/

namespace Numeral

/-- The decimal digits of a number, zero as a single one. -/
def digitsOf (n : Nat) : List Nat := (Nat.toDigits 10 n).map fun c => c.toNat - '0'.toNat

/-- The numeral of an integer, which has neither a fraction nor an exponent. -/
def ofInt (value : Int) : Numeral :=
  { negative := decide (value < 0), whole := digitsOf value.natAbs }

/-- The numeral of a whole number with a zero behind the point. -/
def ofWhole (negative : Bool) (n : Nat) : Numeral :=
  { negative, whole := digitsOf n, fraction := some [0] }

/-- The double nearest to a numeral. -/
def nearest (numeral : Numeral) : Float :=
  let fraction := numeral.fraction.getD []
  let power : Int := match numeral.exponent with
    | none => 0
    | some (negative, digits) => if negative then -digitsValue digits else digitsValue digits
  (⟨digitsValue (numeral.whole ++ fraction), power - fraction.length⟩ : Decimal.Digits).nearest
    numeral.negative

/-- The value of a numeral when numbers are read exactly: an integer where it fits,
and otherwise the nearest double. -/
def exactNode (numeral : Numeral) : Node :=
  match numeral.integer? with
  | some value => .integer value
  | none => .float numeral.nearest

theorem digitsValue_append (digits : List Nat) (last : Nat) :
    digitsValue (digits ++ [last]) = digitsValue digits * 10 + last := by
  rw [digitsValue, List.foldl_append]
  rfl

theorem digitsOf_of_lt {n : Nat} (hlt : n < 10) : digitsOf n = [n] := by
  rw [digitsOf, Nat.toDigits_of_lt_base hlt, List.map_singleton]
  exact congrArg (fun digit => [digit]) (Nat.toNat_digitChar_sub_48_of_lt_ten hlt)

theorem digitsOf_of_le {n : Nat} (hle : 10 ≤ n) :
    digitsOf n = digitsOf (n / 10) ++ [n % 10] := by
  have hdigit : (n % 10).digitChar.toNat - '0'.toNat = n % 10 :=
    Nat.toNat_digitChar_sub_48_of_lt_ten (Nat.mod_lt _ (by omega))
  rw [digitsOf, Nat.toDigits_of_base_le (by omega) hle, List.map_append, List.map_singleton, hdigit,
    digitsOf]

@[simp] theorem digitsValue_digitsOf (n : Nat) : digitsValue (digitsOf n) = n := by
  induction n using Nat.strongRecOn with
  | ind n ih =>
      by_cases hlt : n < 10
      · rw [digitsOf_of_lt hlt]
        exact (Nat.zero_add n)
      · rw [digitsOf_of_le (by omega), digitsValue_append, ih _ (by omega)]
        omega

/-- Only zero itself starts with a zero. -/
theorem digitsOf_eq_cons {n : Nat} :
    ∃ digit rest, digitsOf n = digit :: rest ∧ (digit = 0 → rest = []) := by
  have hpos : 0 < n → ∃ digit rest, digitsOf n = digit :: rest ∧ digit ≠ 0 := by
    induction n using Nat.strongRecOn with
    | ind n ih =>
        intro hpos
        by_cases hlt : n < 10
        · exact ⟨n, [], digitsOf_of_lt hlt, by omega⟩
        · obtain ⟨digit, rest, hdigits, hne⟩ := ih (n / 10) (by omega) (by omega)
          exact ⟨digit, rest ++ [n % 10], by rw [digitsOf_of_le (by omega), hdigits]; rfl, hne⟩
  rcases Nat.eq_zero_or_pos n with rfl | hn
  · exact ⟨0, [], rfl, fun _ => rfl⟩
  · obtain ⟨digit, rest, hdigits, hne⟩ := hpos hn
    exact ⟨digit, rest, hdigits, fun heq => absurd heq hne⟩

/-- The numeral that a double is written as when it is whole. -/
def ofFloat (value : Float) : Numeral := ofWhole (hasSign value) value.toUInt64.toNat

/-- **Reading a whole number exactly gives it back.** -/
theorem exactNode_ofFloat {value : Float} (hwhole : IsWhole value) :
    (ofFloat value).exactNode = .float value := by
  cases hwhole with
  | @ofNat n hlt =>
      have hnearest : (ofWhole false n).nearest =
          (⟨n * 10, -1⟩ : Decimal.Digits).nearest false := by
        have hdigits : digitsValue (digitsOf n ++ [0]) = n * 10 := by
          rw [digitsValue_append, digitsValue_digitsOf, Nat.add_zero]
        simp only [nearest, ofWhole, Option.getD_some, hdigits]
        rfl
      rw [ofFloat, Decimal.hasSign_ofNat hlt, toUInt64_ofNat hlt]
      exact congrArg Node.float (hnearest.trans (Decimal.nearest_mul_ten hlt))
  | negativeZero => rfl

/-- Reading an integer that fits a signed word gives it back. -/
theorem integer?_ofInt {value : Int} (hlow : -0x8000000000000000 ≤ value)
    (hhigh : value ≤ 0xFFFFFFFFFFFFFFFF) : (ofInt value).integer? = some value := by
  simp only [integer?, ofInt, digitsValue_digitsOf, Option.isNone_none, Bool.and_self, if_true,
    decide_eq_true_eq, largest]
  by_cases hnegative : value < 0
  · rw [if_pos hnegative, if_pos (by omega)]
    exact congrArg some (by omega)
  · rw [if_neg hnegative, if_pos (by omega)]
    exact congrArg some (by omega)

end Numeral

namespace Token

/-! ## Scanning digits -/

variable {rest after : List Symbol}

/-- A row of symbols that does not go on with a digit. -/
def EndsDigits (rest : List Symbol) : Prop := ∀ symbol ∈ rest.head?, digitValue? symbol = none

/-- A row of symbols that goes on with nothing that a number could go on with. -/
structure EndsNumber (rest : List Symbol) : Prop where
  digits : EndsDigits rest
  point : ∀ symbol ∈ rest.head?, symbol ≠ .char '.'
  power : ∀ symbol ∈ rest.head?, symbol ≠ .char 'e' ∧ symbol ≠ .char 'E'

theorem scanDigits_append {digits : List Char} (hdigits : ∀ c ∈ digits, c.isDigit = true)
    (hends : EndsDigits rest) :
    scanDigits (symbolsOf digits ++ rest) = (digits.map fun c => c.toNat - '0'.toNat, rest) := by
  induction digits with
  | nil =>
      cases rest with
      | nil => rfl
      | cons symbol rest =>
          have hnone : digitValue? symbol = none := hends symbol rfl
          change scanDigits (symbol :: rest) = ([], symbol :: rest)
          rw [scanDigits, hnone]
  | cons c digits ih =>
      have hvalue : digitValue? (.char c) = some (c.toNat - '0'.toNat) :=
        if_pos (hdigits c (List.mem_cons_self ..))
      rw [symbolsOf_cons, List.cons_append, scanDigits, hvalue]
      simp only [ih fun c hc => hdigits c (List.mem_cons_of_mem _ hc), List.map_cons]

theorem finishNumber_digitsOf (negative : Bool) (n : Nat) (rest : List Symbol) :
    finishNumber negative (Numeral.digitsOf n) rest =
      scanFraction { negative, whole := Numeral.digitsOf n } rest := by
  obtain ⟨digit, following, hdigits, hzero⟩ := Numeral.digitsOf_eq_cons (n := n)
  rw [hdigits]
  unfold finishNumber
  split
  · contradiction
  · rename_i heq
    obtain ⟨rfl, rfl⟩ := List.cons.inj heq
    exact absurd (hzero rfl) (List.cons_ne_nil _ _)
  · rfl

/-- The digits of a number are scanned as a whole, whatever its sign. -/
theorem ofSymbols_signed {negative : Bool} {n : Nat} {numeral : Numeral} (hends : EndsDigits rest)
    (hscan : scanFraction { negative, whole := Numeral.digitsOf n } rest =
      (.number numeral, after)) :
    ofSymbols (symbolsOf (signed negative (Nat.toDigits 10 n)) ++ rest) =
      .number numeral :: ofSymbols after := by
  have hdigits : ∀ c ∈ Nat.toDigits 10 n, c.isDigit = true := fun c hc =>
    Nat.isDigit_of_mem_toDigits (by omega) (by omega) hc
  cases negative with
  | true =>
      have hnumber : scan (.char '-') (symbolsOf (Nat.toDigits 10 n) ++ rest) =
          (.number numeral, after) := by
        rw [scan, scanNumber, scanDigits_append hdigits hends]
        exact (finishNumber_digitsOf true n rest).trans hscan
      exact ofSymbols_token (by decide) hnumber rfl
  | false =>
      obtain ⟨c, following, hcons⟩ := List.exists_cons_of_length_pos
        (Nat.length_toDigits_pos (b := 10) (n := n))
      have hc : c.isDigit = true := hdigits c (hcons ▸ List.mem_cons_self ..)
      have hfollowing : ∀ c ∈ following, c.isDigit = true := fun c hc =>
        hdigits c (hcons ▸ List.mem_cons_of_mem _ hc)
      have hvalues : [c.toNat - '0'.toNat] ++ following.map (fun c => c.toNat - '0'.toNat) =
          Numeral.digitsOf n := by
        rw [Numeral.digitsOf, hcons]
        rfl
      have hnumber : scan (.char c) (symbolsOf following ++ rest) = (.number numeral, after) := by
        have hfirst : scan (.char c) (symbolsOf following ++ rest) =
            scanNumber false [c.toNat - '0'.toNat] (symbolsOf following ++ rest) := by
          unfold scan
          split <;> simp_all [digitValue?]
        rw [hfirst, scanNumber, scanDigits_append hfollowing hends]
        simp only [hvalues]
        exact (finishNumber_digitsOf false n rest).trans hscan
      -- a digit is no blank, so the token starts with it
      have hblank : isBlank (.char c) = false := by
        unfold isBlank
        simp only [Bool.or_eq_false_iff, beq_eq_false_iff_ne, ne_eq, Symbol.char.injEq]
        refine ⟨⟨⟨?_, ?_⟩, ?_⟩, ?_⟩ <;> rintro rfl <;> contradiction
      rw [signed, if_neg Bool.false_ne_true, hcons]
      exact ofSymbols_token hblank hnumber rfl

theorem scanExponent_of_ends (numeral : Numeral) (hends : EndsNumber rest) :
    scanExponent numeral rest = (.number numeral, rest) := by
  unfold scanExponent
  split
  · exact absurd rfl (hends.power _ rfl).1
  · exact absurd rfl (hends.power _ rfl).2
  · rfl

theorem scanFraction_of_ends (numeral : Numeral) (hends : EndsNumber rest) :
    scanFraction numeral rest = (.number numeral, rest) := by
  unfold scanFraction
  split
  · exact absurd rfl (hends.point _ rfl)
  · exact scanExponent_of_ends numeral hends

/-- **An integer is scanned as its numeral.** -/
theorem ofSymbols_integer (value : Int) (hends : EndsNumber rest) :
    ofSymbols (symbolsOf (toString value).toList ++ rest) =
      .number (.ofInt value) :: ofSymbols rest := by
  have htext : (toString value).toList = signed (value < 0) (Nat.toDigits 10 value.natAbs) := by
    change value.repr.toList = _
    rw [Int.repr_eq_if]
    by_cases hnegative : value < 0
    · have hmagnitude : (-value).toNat = value.natAbs := by omega
      rw [if_neg (by omega), signed, if_pos (decide_eq_true hnegative), String.toList_append,
        Nat.toList_repr, hmagnitude]
      rfl
    · have hmagnitude : value.toNat = value.natAbs := by omega
      rw [if_pos (by omega), signed, if_neg (by simpa using hnegative), Nat.toList_repr,
        hmagnitude]
  rw [htext]
  exact ofSymbols_signed hends.digits (scanFraction_of_ends _ hends)

/-- **A double that is a whole number is scanned as its numeral**, with the zero
behind the point. -/
theorem ofSymbols_float {value : Float} (hwhole : IsWhole value) (hends : EndsNumber rest) :
    ofSymbols (symbolsOf (Decimal.render Decimal.Layout.json value).toList ++ rest) =
      .number (.ofFloat value) :: ofSymbols rest := by
  obtain ⟨n, hn⟩ : ∃ n, n = value.toUInt64.toNat := ⟨_, rfl⟩
  obtain ⟨negative, hnegative⟩ : ∃ negative, negative = hasSign value := ⟨_, rfl⟩
  rw [hwhole.render_eq (by decide) (by decide), Numeral.ofFloat, ← hn, ← hnegative]
  have hpoint : EndsDigits (.char '.' :: .char '0' :: rest) := by
    rintro symbol hsymbol
    obtain rfl := Option.some.inj hsymbol
    rfl
  have hscan : scanFraction { negative, whole := Numeral.digitsOf n }
      (.char '.' :: .char '0' :: rest) = (.number (.ofWhole negative n), rest) := by
    have hdigits : ∀ c ∈ ['0'], c.isDigit = true := by simp
    have hzero : scanDigits (.char '0' :: rest) = ([0], rest) :=
      scanDigits_append hdigits hends.digits
    rw [scanFraction, hzero]
    exact scanExponent_of_ends _ hends
  have hsplit : symbolsOf (signed negative (Nat.toDigits 10 n ++ ['.', '0'])) ++ rest =
      symbolsOf (signed negative (Nat.toDigits 10 n)) ++ .char '.' :: .char '0' :: rest := by
    cases negative <;> simp [signed, symbolsOf]
  rw [hsplit]
  exact ofSymbols_signed hpoint hscan

end Token

end ProgramGraphs.Json
