import ProgramGraphs.Decimal.Layout
import ProgramGraphs.Decimal.Nearest
import ProgramGraphs.Proofs.Decimal.Whole

/-!
# The text of whole numbers

A whole number below `2 ^ 53` that is held as a double is written as its decimal
numeral with `.0` behind it, in every layout that is plain up to there
(`render_ofNat`).  The search for the shortest decimal only meets grids of whole
numbers, and on these no other point than the number itself lies in its interval
(`readsBack_iff`).

The double that is nearest to a whole number is that number
(`nearest_mul_ten`).
-/

namespace ProgramGraphs.Decimal

open Whole

variable {n : Nat}

/-! ## Bits -/

/-- The bits of a whole number: the exponent, which the leading place of the
mantissa raises by one, and the mantissa. -/
theorem toBits_ofNat (hpos : 0 < n) (hlt : n < 2 ^ 53) :
    (Float.ofNat n).toBits.toNat = (n.log2 + 1022) * implicitBit + n * 2 ^ (52 - n.log2) := by
  have hle := log2_le hlt
  have hmantissa := mantissa_eq hpos hlt
  have hbits : (Float.ofNat n).toBits.toNat =
      (Float.Model.UnpackedFloat.pack Float.Model.Format.binary64 (form n)).toNat := by
    rw [ofNat_eq_pack hlt]
    rfl
  have hpacked : (Float.Model.UnpackedFloat.pack Float.Model.Format.binary64 (form n)).toNat =
      (0#1 ++ BitVec.ofNat 11 (n.log2 + 1023) ++
        BitVec.ofNat 52 (n * 2 ^ (52 - n.log2))).toNat := by
    rw [pack_form hpos hlt]
    rfl
  have hexponent : (0#1 ++ BitVec.ofNat 11 (n.log2 + 1023)).toNat = n.log2 + 1023 := by
    rw [BitVec.toNat_append, BitVec.toNat_ofNat, BitVec.toNat_ofNat, Nat.zero_mod,
      Nat.zero_shiftLeft, Nat.zero_or, Nat.mod_eq_of_lt (by omega)]
  have hstored : (BitVec.ofNat 52 (n * 2 ^ (52 - n.log2))).toNat = n * 2 ^ (52 - n.log2) % 2 ^ 52 :=
    BitVec.toNat_ofNat ..
  rw [hbits, hpacked, BitVec.toNat_append, hexponent]
  -- the mantissa stays a name: its power of two must not be computed
  generalize n * 2 ^ (52 - n.log2) = mantissa at *
  have hfits : mantissa % 2 ^ 52 < 2 ^ 52 := Nat.mod_lt _ (Nat.two_pow_pos 52)
  have hjoined := Nat.shiftLeft_add_eq_or_of_lt hfits (n.log2 + 1023)
  calc (n.log2 + 1023) <<< 52 ||| (BitVec.ofNat 52 mantissa).toNat
      = (n.log2 + 1023) <<< 52 + mantissa % 2 ^ 52 := by rw [hstored, hjoined]
    _ = (n.log2 + 1023) * 2 ^ 52 + mantissa % 2 ^ 52 := by rw [Nat.shiftLeft_eq]
    _ = (n.log2 + 1022) * 2 ^ 52 + (2 ^ 52 + mantissa % 2 ^ 52) := by
        rw [← Nat.add_assoc, ← Nat.succ_mul]
    _ = (n.log2 + 1022) * implicitBit + mantissa := by rw [hmantissa]; rfl

/-- A binary number is a whole number when its mantissa is in place. -/
structure Binary.Holds (number : Binary) (n : Nat) : Prop where
  mantissa_eq : number.mantissa = n * 2 ^ (52 - n.log2)
  exponent_eq : number.exponent = (n.log2 : Int) - 52

theorem exists_holds (hpos : 0 < n) (hlt : n < 2 ^ 53) :
    ∃ number : Binary, number.Holds n ∧
      Reading.ofBits (Float.ofNat n).toBits = .nonzero false number := by
  have hle := log2_le hlt
  have hmantissa := mantissa_eq hpos hlt
  have hbits := toBits_ofNat hpos hlt
  unfold implicitBit at hbits
  have hsign : (Float.ofNat n).toBits.toNat / 0x8000000000000000 = 0 := by omega
  have hbiased : (Float.ofNat n).toBits.toNat / 0x10000000000000 % 2048 = n.log2 + 1023 := by
    omega
  have hfraction : (Float.ofNat n).toBits.toNat % 0x10000000000000 =
      n * 2 ^ (52 - n.log2) % 2 ^ 52 := by omega
  refine ⟨⟨2 ^ 52 + n * 2 ^ (52 - n.log2) % 2 ^ 52, (n.log2 : Int) - 52,
    n * 2 ^ (52 - n.log2) % 2 ^ 52 == 0 && decide (1 < n.log2 + 1023)⟩, ⟨hmantissa, rfl⟩, ?_⟩
  have hexponent : ((n.log2 + 1023 : Nat) : Int) - 1075 = (n.log2 : Int) - 52 := by omega
  have hfinite : ¬ n.log2 + 1023 = 2047 := by omega
  have hnormal : ¬ n.log2 + 1023 = 0 := by omega
  simp only [Reading.ofBits, implicitBit, hsign, hbiased, hfraction, hexponent, if_neg hfinite,
    if_neg hnormal]
  rfl

/-! ## The shortest decimal -/

namespace Binary

variable {number : Binary}

/-- A whole number in quarters of its last place. -/
theorem Holds.quarters_eq (hholds : number.Holds n) (hlt : n < 2 ^ 53) :
    4 * number.mantissa = n * 2 ^ (54 - n.log2) := by
  have hle := log2_le hlt
  have hpower : 2 ^ (54 - n.log2) = 4 * 2 ^ (52 - n.log2) := by
    rw [show 54 - n.log2 = (52 - n.log2) + 2 by omega, Nat.pow_add, Nat.mul_comm]
  rw [hholds.mantissa_eq, hpower, Nat.mul_left_comm]

/-- On a grid of whole numbers one step is a multiple of the number's own unit. -/
theorem Holds.ruler_eq (hholds : number.Holds n) (hlt : n < 2 ^ 53) (grid : Nat) :
    number.ruler grid = ⟨10 ^ grid * 2 ^ (54 - n.log2), 1⟩ := by
  have hle := log2_le hlt
  have hquarter : (-(number.exponent - 2)).toNat = 54 - n.log2 := by
    rw [hholds.exponent_eq]
    omega
  have hnone : (number.exponent - 2).toNat = 0 := by
    rw [hholds.exponent_eq]
    omega
  have hgrid : (-(grid : Int)).toNat = 0 := by omega
  rw [ruler, hquarter, hnone, hgrid, Int.toNat_natCast]
  rfl

/-- The interval of a whole number holds no other whole number. -/
theorem Holds.readsBack_iff (hholds : number.Holds n) (hpos : 0 < n) (hlt : n < 2 ^ 53)
    (grid point : Nat) :
    number.readsBack (number.ruler grid) point = true ↔ point * 10 ^ grid = n := by
  have hle := log2_le hlt
  have hquarters := hholds.quarters_eq hlt
  -- one step is four quarters or more, and the interval reaches no further than two
  have hunit : 4 ≤ 2 ^ (54 - n.log2) :=
    calc 4 = 2 ^ 2 := rfl
      _ ≤ 2 ^ (54 - n.log2) := Nat.pow_le_pow_right (by omega) (by omega)
  have hlow : n * 2 ^ (54 - n.log2) ≤ number.low + 2 ∧ number.low < n * 2 ^ (54 - n.log2) := by
    have hone := Nat.mul_le_mul hpos hunit
    unfold low
    split <;> omega
  have hposition : point * (10 ^ grid * 2 ^ (54 - n.log2)) =
      point * 10 ^ grid * 2 ^ (54 - n.log2) := (Nat.mul_assoc ..).symm
  simp only [readsBack, hholds.ruler_eq hlt, hposition, high, hquarters, Nat.mul_one]
  generalize point * 10 ^ grid = value at *
  generalize 2 ^ (54 - n.log2) = unit at *
  have hbelow : value < n → value * unit + unit ≤ n * unit := fun hvalue =>
    calc value * unit + unit = (value + 1) * unit := (Nat.succ_mul ..).symm
      _ ≤ n * unit := Nat.mul_le_mul_right _ hvalue
  have habove : n < value → n * unit + unit ≤ value * unit := fun hvalue =>
    calc n * unit + unit = (n + 1) * unit := (Nat.succ_mul ..).symm
      _ ≤ value * unit := Nat.mul_le_mul_right _ hvalue
  constructor
  · intro hreads
    have hinside : number.low ≤ value * unit ∧ value * unit ≤ n * unit + 2 := by
      split at hreads <;> simp only [Bool.and_eq_true, decide_eq_true_eq] at hreads <;> omega
    rcases Nat.lt_trichotomy value n with hvalue | hvalue | hvalue
    · have hstep := hbelow hvalue
      omega
    · exact hvalue
    · have hstep := habove hvalue
      omega
  · intro hvalue
    subst hvalue
    split <;> simp only [Bool.and_eq_true, decide_eq_true_eq] <;> omega

/-- On a grid that holds the number, the number is written as itself; on any other
grid of whole numbers it is not written at all. -/
theorem Holds.pointOn?_eq (hholds : number.Holds n) (hpos : 0 < n) (hlt : n < 2 ^ 53) (tie : Tie)
    (grid : Nat) :
    number.pointOn? tie grid = if 10 ^ grid ∣ n then some (n / 10 ^ grid) else none := by
  have hunit : 0 < 2 ^ (54 - n.log2) := Nat.two_pow_pos _
  have hbelow : 4 * number.mantissa * (number.ruler grid).scale / (number.ruler grid).unit =
      n / 10 ^ grid := by
    rw [hholds.ruler_eq hlt, hholds.quarters_eq hlt, Nat.mul_one, Nat.mul_div_mul_right _ _ hunit]
  have hnext : number.readsBack (number.ruler grid) (n / 10 ^ grid + 1) = false := by
    rw [Bool.eq_false_iff, Ne, hholds.readsBack_iff hpos hlt]
    have hbeyond := Nat.lt_div_mul_add (a := n) (Nat.pow_pos (n := grid) (show 0 < 10 by omega))
    rw [Nat.succ_mul]
    omega
  have hpoint := hholds.readsBack_iff hpos hlt grid (n / 10 ^ grid)
  rw [pointOn?]
  simp only [hbelow, hnext]
  split_ifs with hdvd
  · rw [hpoint.mpr (Nat.div_mul_cancel hdvd)]
  · have hmissed : number.readsBack (number.ruler grid) (n / 10 ^ grid) = false :=
      Bool.eq_false_iff.mpr fun hreads =>
        hdvd ⟨_, (hpoint.mp hreads).symm.trans (Nat.mul_comm ..)⟩
    rw [hmissed]

end Binary

/-- A decimal is a whole number when no digit stands behind the point. -/
def Digits.IsWhole (decimal : Digits) (n : Nat) : Prop :=
  ∃ grid : Nat, decimal.exponent = grid ∧ decimal.digits * 10 ^ grid = n

theorem Digits.IsWhole.trim {decimal : Digits} (hwhole : decimal.IsWhole n) :
    decimal.trim.IsWhole n := by
  fun_induction Digits.trim decimal with
  | case1 decimal hzero ih =>
      obtain ⟨grid, hexponent, hvalue⟩ := hwhole
      refine ih ⟨grid + 1, by rw [hexponent]; rfl, ?_⟩
      have hdigits : decimal.digits / 10 * 10 = decimal.digits := by omega
      rw [Nat.pow_succ', ← Nat.mul_assoc, hdigits, hvalue]
  | case2 decimal hzero => exact hwhole

/-- **The shortest decimal of a whole number is a whole number**, and the same one. -/
theorem Binary.Holds.shortest_isWhole {number : Binary} (hholds : number.Holds n) (hpos : 0 < n)
    (hlt : n < 2 ^ 53) (tie : Tie) : (number.shortest tie).IsWhole n := by
  have hle := log2_le hlt
  have hmagnitude : 2 ≤ number.magnitude ∧ number.magnitude ≤ 17 := by
    rw [Binary.magnitude, hholds.mantissa_eq, hholds.exponent_eq, log2_mantissa hpos hlt]
    omega
  obtain ⟨top, htop⟩ := Int.eq_ofNat_of_zero_le (show 0 ≤ number.magnitude by omega)
  -- the grids of whole numbers come first, and the last of them holds every number
  have hgrids : number.grids = (List.range (top + 1)).map (fun step : Nat => (top : Int) - step) ++
      (List.range (23 - top)).map (fun step : Nat => (top : Int) - (top + 1 + step : Nat)) := by
    have hsplit : 24 = top + 1 + (23 - top) := by omega
    rw [Binary.grids, htop, hsplit, List.range_add, List.map_append, List.map_map]
    rfl
  have hsome : ((((List.range (top + 1)).map fun step : Nat => (top : Int) - step)).findSome?
      fun grid => (number.pointOn? tie grid).map fun point => (⟨point, grid⟩ : Digits)).isSome := by
    rw [List.findSome?_isSome_iff]
    refine ⟨(0 : Nat), List.mem_map.mpr ⟨top, List.mem_range.mpr (by omega), by omega⟩, ?_⟩
    rw [hholds.pointOn?_eq hpos hlt, if_pos ⟨n, by rw [Nat.pow_zero, Nat.one_mul]⟩]
    rfl
  obtain ⟨found, hfound⟩ := Option.isSome_iff_exists.mp hsome
  obtain ⟨grid, hgrid, hpoint⟩ := List.exists_of_findSome?_eq_some hfound
  obtain ⟨step, hstep, rfl⟩ := List.mem_map.mp hgrid
  have hnatural : (top : Int) - step = (top - step : Nat) := by
    have hbound := List.mem_range.mp hstep
    omega
  rw [Binary.shortest, hgrids, List.findSome?_append, hfound]
  refine Digits.IsWhole.trim ?_
  rw [hnatural, hholds.pointOn?_eq hpos hlt] at hpoint
  split_ifs at hpoint with hdvd
  · obtain rfl := Option.some.inj hpoint
    exact ⟨top - step, rfl, Nat.div_mul_cancel hdvd⟩
  · contradiction

/-! ## Its text -/

theorem toDigits_mul_pow (hpos : 0 < n) (count : Nat) :
    Nat.toDigits 10 (n * 10 ^ count) = Nat.toDigits 10 n ++ zeros count := by
  induction count with
  | zero => rw [Nat.pow_zero, Nat.mul_one, zeros, List.replicate_zero, List.append_nil]
  | succ count ih =>
      have hle : 10 ≤ n * 10 ^ (count + 1) :=
        calc 10 = 1 * 10 := rfl
          _ ≤ n * 10 ^ count * 10 :=
            Nat.mul_le_mul_right _ (Nat.mul_pos hpos (Nat.pow_pos (by omega)))
          _ = n * 10 ^ (count + 1) := by rw [Nat.mul_assoc, ← Nat.pow_succ]
      rw [Nat.toDigits_of_base_le (by omega) hle, Nat.pow_succ, ← Nat.mul_assoc,
        Nat.mul_div_cancel _ (by omega), Nat.mul_mod_left, ih, zeros, zeros, List.replicate_succ',
        List.append_assoc]
      rfl

/-- **A whole number is written as its numeral and `.0`**, in every layout that is
plain from one up to `10 ^ 16`. -/
theorem render_ofNat {layout : Layout} (hfrom : layout.plainFrom ≤ 0)
    (hbelow : 16 ≤ layout.plainBelow) (hlt : n < 2 ^ 53) :
    render layout (Float.ofNat n) = String.ofList (Nat.toDigits 10 n ++ ['.', '0']) := by
  rcases Nat.eq_zero_or_pos n with rfl | hpos
  · rfl
  obtain ⟨number, hholds, hreading⟩ := exists_holds hpos hlt
  obtain ⟨grid, hexponent, hvalue⟩ := hholds.shortest_isWhole hpos hlt layout.tie
  have hdigitsPos : 0 < (number.shortest layout.tie).digits :=
    Nat.pos_of_ne_zero fun hzero => by
      rw [hzero, Nat.zero_mul] at hvalue
      omega
  have hshown : numeral (number.shortest layout.tie).digits ++ zeros grid = Nat.toDigits 10 n := by
    rw [← hvalue, toDigits_mul_pow hdigitsPos]
    rfl
  have hlength : (numeral (number.shortest layout.tie).digits).length + grid ≤ 16 := by
    have hdigits : (Nat.toDigits 10 n).length ≤ 16 :=
      (Nat.length_toDigits_le_iff (by omega) (by omega)).mpr (Nat.lt_trans hlt (by decide))
    rwa [← hshown, List.length_append, zeros, List.length_replicate] at hdigits
  have hfirst : 0 < (numeral (number.shortest layout.tie).digits).length :=
    Nat.length_toDigits_pos
  have hleading : layout.plainFrom ≤ (number.shortest layout.tie).leading ∧
      (number.shortest layout.tie).leading < layout.plainBelow := by
    rw [Digits.leading, hexponent]
    omega
  rw [render, hreading, Reading.render, if_neg (by decide), Digits.render, if_pos hleading,
    Digits.renderPlain, if_pos (by omega), hexponent, Int.toNat_natCast]
  simp only [hshown]

/-! ## Reading it back -/

/-- A whole number is read from its own bits. -/
theorem ofBits_toBits_ofNat (hlt : n < 2 ^ 53) :
    Float.ofBits (Float.ofNat n).toBits = Float.ofNat n := by
  have hread : Float.ofBits (Float.ofNat n).toBits =
      .ofModel (.pack (Float.ofNat n).toModel.unpack) := rfl
  rw [hread, unpack_ofNat hlt, ofNat_eq_pack hlt]

theorem shifted_neg (numerator denominator places : Nat) :
    shifted numerator denominator (-(places : Int)) = (numerator * 2 ^ places, denominator) := by
  rcases Nat.eq_zero_or_pos places with rfl | hpos
  · rw [Nat.pow_zero, Nat.mul_one]
    exact congrArg (Prod.mk numerator) (Nat.mul_one denominator)
  · rw [shifted, if_neg (by omega), Int.neg_neg, Int.toNat_natCast]
    rfl

/-- A quotient that is a whole number has the last place of that number. -/
theorem lastPlace_mul_ten (hpos : 0 < n) (hlt : n < 2 ^ 53) :
    lastPlace (n * 10) 10 = -((52 - n.log2 : Nat) : Int) := by
  have hle := log2_le hlt
  obtain ⟨hfrom, hbelow⟩ := (Nat.log2_eq_iff hpos.ne').mp (rfl : n.log2 = n.log2)
  have hten : (10 : Nat).log2 = 3 := by decide
  -- the leading place of ten times the number is three or four places further left
  have hbetween : (n * 10).log2 = n.log2 + 3 ∨ (n * 10).log2 = n.log2 + 4 := by
    have hne : n * 10 ≠ 0 := by omega
    rw [Nat.log2_eq_iff hne, Nat.log2_eq_iff hne]
    simp only [Nat.pow_succ] at hbelow ⊢
    omega
  have hlast := mantissa_bounds hpos hlt
  rcases hbetween with hlog | hlog
  · -- the guess is one place too low
    have hguess : (((n * 10).log2 : Nat) : Int) - ((10 : Nat).log2 : Nat) - 53 =
        -((53 - n.log2 : Nat) : Int) := by
      rw [hlog, hten]
      omega
    have hreached : 2 * implicitBit * 10 ≤ n * 10 * 2 ^ (53 - n.log2) := by
      have hnext : n * 10 * 2 ^ (53 - n.log2) = n * 2 ^ (52 - n.log2) * 20 := by
        rw [show 53 - n.log2 = (52 - n.log2) + 1 by omega, Nat.pow_succ, Nat.mul_right_comm,
          ← Nat.mul_assoc, Nat.mul_assoc _ 2 10]
      rw [hnext, implicitBit]
      omega
    simp only [lastPlace, hguess, shifted_neg, if_pos hreached]
    rw [if_neg (by omega)]
    omega
  · have hguess : (((n * 10).log2 : Nat) : Int) - ((10 : Nat).log2 : Nat) - 53 =
        -((52 - n.log2 : Nat) : Int) := by
      rw [hlog, hten]
      omega
    have hshort : ¬ 2 * implicitBit * 10 ≤ n * 10 * 2 ^ (52 - n.log2) := by
      rw [Nat.mul_right_comm n 10, implicitBit]
      omega
    simp only [lastPlace, hguess, shifted_neg, if_neg hshort]
    rw [if_neg (by omega)]

theorem roundedQuotient_mul (quotient : Nat) {denominator : Nat} (hpos : 0 < denominator) :
    roundedQuotient (quotient * denominator) denominator = quotient := by
  rw [roundedQuotient, Nat.mul_mod_left, Nat.mul_div_cancel _ hpos]
  exact if_pos hpos

/-- **A decimal that is a whole number is read as that number**, also when a zero
stands behind its point. -/
theorem nearest_mul_ten (hlt : n < 2 ^ 53) :
    (⟨n * 10, -1⟩ : Digits).nearest false = Float.ofNat n := by
  rcases Nat.eq_zero_or_pos n with rfl | hpos
  · rfl
  have hle := log2_le hlt
  have hlength : (Nat.toDigits 10 (n * 10)).length ≤ 17 :=
    (Nat.length_toDigits_le_iff (by omega) (by omega)).mpr (by omega)
  have hbits : (⟨n * 10, -1⟩ : Digits).nearestBits = (Float.ofNat n).toBits.toNat := by
    have hplace : (-((52 - n.log2 : Nat) : Int) + 1074).toNat = n.log2 + 1022 := by omega
    have hten : Nat.pow 10 (-(-1 : Int)).toNat = 10 := rfl
    have hmantissa : n * 10 * 2 ^ (52 - n.log2) = n * 2 ^ (52 - n.log2) * 10 :=
      Nat.mul_right_comm ..
    have hsmall : ¬ (n * 10 = 0 ∨ -1 + ((Nat.toDigits 10 (n * 10)).length : Int) < -330) := by omega
    have hlarge : ¬ 310 < -1 + ((Nat.toDigits 10 (n * 10)).length : Int) := by omega
    have hpoint : ¬ (0 : Int) ≤ -1 := by omega
    simp only [Digits.nearestBits, if_neg hsmall, if_neg hlarge, if_neg hpoint, hten, quotientBits,
      lastPlace_mul_ten hpos hlt, shifted_neg, hmantissa, hplace,
      roundedQuotient_mul _ (show 0 < 10 by omega)]
    rw [← toBits_ofNat hpos hlt]
    refine Nat.min_eq_right ?_
    have hlast := (mantissa_bounds hpos hlt).2
    rw [toBits_ofNat hpos hlt, infinityBits, implicitBit]
    omega
  have hword : UInt64.ofNat ((Float.ofNat n).toBits.toNat + 0) = (Float.ofNat n).toBits :=
    UInt64.ofNat_toNat
  rw [Digits.nearest, hbits]
  exact (congrArg Float.ofBits hword).trans (ofBits_toBits_ofNat hlt)

/-! ## Doubles that are whole numbers -/

/-- A double that is a whole number below `2 ^ 53` and not negative.  Minus zero is
a zero. -/
inductive IsWhole : Float → Prop
  | ofNat {n : Nat} (hlt : n < 2 ^ 53) : IsWhole (Float.ofNat n)
  | negativeZero : IsWhole (-0.0)

/-- Whether the sign bit of a double is set. -/
def hasSign (value : Float) : Bool := decide (2 ^ 63 ≤ value.toBits.toNat)

/-- A numeral with its sign in front. -/
def signed (negative : Bool) (digits : List Char) : List Char :=
  if negative then '-' :: digits else digits

theorem hasSign_ofNat (hlt : n < 2 ^ 53) : hasSign (Float.ofNat n) = false := by
  rcases Nat.eq_zero_or_pos n with rfl | hpos
  · rfl
  have hle := log2_le hlt
  have hlast := (mantissa_bounds hpos hlt).2
  rw [hasSign, toBits_ofNat hpos hlt, implicitBit]
  exact decide_eq_false (by omega)

theorem IsWhole.render_eq {value : Float} (hwhole : IsWhole value) {layout : Layout}
    (hfrom : layout.plainFrom ≤ 0) (hbelow : 16 ≤ layout.plainBelow) :
    (render layout value).toList =
      signed (hasSign value) (Nat.toDigits 10 value.toUInt64.toNat ++ ['.', '0']) := by
  cases hwhole with
  | ofNat hlt =>
      rw [render_ofNat hfrom hbelow hlt, hasSign_ofNat hlt, toUInt64_ofNat hlt,
        String.toList_ofList]
      rfl
  | negativeZero =>
      have hreading : Reading.ofBits (Float.toBits (-0.0)) = .zero true := rfl
      have hsign : hasSign (-0.0) = true := rfl
      have hvalue : (Float.toUInt64 (-0.0)).toNat = 0 := rfl
      have htext : Reading.render layout (.zero true) = String.ofList ['-', '0', '.', '0'] := rfl
      rw [render, hreading, hsign, hvalue, htext, String.toList_ofList]
      rfl

end ProgramGraphs.Decimal
