import Mathlib
import ProgramGraphs.Decimal.Shortest

/-!
# Whole numbers as floating-point numbers

Below `2 ^ 53` a double holds every whole number, and it holds it in one way only
(`unpack_pack_whole`).  Rounding leaves such a number alone
(`round_eq_whole`), so sums that stay below the bound are the sums of the natural
numbers (`ofNat_add_ofNat`), the order of the natural numbers is kept
(`ofNat_le_ofNat`), and nothing is lost on the way to a 64-bit word and back
(`toUInt64_ofNat`).
-/

namespace ProgramGraphs.Whole

open Float.Model (totalExponent UnpackedFloat)
open Float.Model.Format (binary64)
open Float.Model.UnpackedFloat (ExtendedMantissa decreaseExponent packComponents roundWithAccuracy
  shiftToExponent shiftToTargetExponent Sign)

/-! ## Rounding what needs no rounding -/

theorem log2_mul_two_pow {n : Nat} (hpos : 0 < n) (shift : Nat) :
    (n * 2 ^ shift).log2 = n.log2 + shift := by
  induction shift with
  | zero => simp
  | succ shift ih =>
      have hne : n * 2 ^ shift ≠ 0 := (Nat.mul_pos hpos (Nat.two_pow_pos shift)).ne'
      rw [Nat.pow_succ, ← Nat.mul_assoc, Nat.mul_comm _ 2, Nat.log2_two_mul hne, ih]
      rfl

/-- Moving zeros from the mantissa into the exponent does not move the leading digit. -/
theorem totalExponent_mul_two_pow {mantissa : Nat} (hpos : 0 < mantissa) (exponent : Int)
    (shift : Nat) :
    totalExponent (mantissa * 2 ^ shift) (exponent - shift) = totalExponent mantissa exponent := by
  simp only [totalExponent, log2_mul_two_pow hpos]
  omega

/-- Nothing is lost when the bits that are shifted out are zeros. -/
theorem shiftRight_mul_two_pow (mantissa shift : Nat) :
    (⟨mantissa * 2 ^ shift, false, false⟩ : ExtendedMantissa) >>> shift =
      ⟨mantissa, false, false⟩ := by
  have hstep : ∀ m : Nat, ExtendedMantissa.shiftRightOne ⟨m * 2, false, false⟩ =
      ⟨m, false, false⟩ := fun m => by
    simp [ExtendedMantissa.shiftRightOne]
  induction shift generalizing mantissa with
  | zero => simp [HShiftRight.hShiftRight, Nat.repeat]
  | succ shift ih =>
      have hlast := ih (mantissa * 2)
      rw [Nat.mul_assoc, ← Nat.pow_succ'] at hlast
      have hunfold : (⟨mantissa * 2 ^ (shift + 1), false, false⟩ : ExtendedMantissa) >>> (shift + 1)
          = ((⟨mantissa * 2 ^ (shift + 1), false, false⟩ : ExtendedMantissa) >>>
              shift).shiftRightOne := rfl
      rw [hunfold, hlast, hstep]

section Round

variable {spec : Float.Model.Format} {mantissa : Nat} {exponent : Int}

theorem shiftToExponent_mul_two_pow (mantissa : Nat) (exponent : Int) (shift : Nat) :
    shiftToExponent (mantissa * 2 ^ shift) (exponent - shift) .exact exponent =
      (⟨mantissa, false, false⟩, exponent) := by
  have hamount : (exponent - (exponent - shift)).toNat = shift := by omega
  rw [shiftToExponent, hamount]
  simp only [ExtendedMantissa.ofMantissaAndAccuracy, shiftRight_mul_two_pow]
  rw [Int.sub_add_cancel]

/-- A number whose exponent is the one that the format wants is not rounded. -/
theorem roundWithAccuracy_mul_two_pow (sign : Sign) (hpos : 0 < mantissa)
    (hcanonical : spec.targetExponent (totalExponent mantissa exponent) = exponent)
    (shift : Nat) :
    roundWithAccuracy spec sign (mantissa * 2 ^ shift) (exponent - shift) .exact =
      .finite sign mantissa exponent hpos := by
  have hfirst : shiftToTargetExponent spec (mantissa * 2 ^ shift) (exponent - shift) .exact =
      (⟨mantissa, false, false⟩, exponent) := by
    rw [shiftToTargetExponent, totalExponent_mul_two_pow hpos, hcanonical,
      shiftToExponent_mul_two_pow]
  have hsecond : shiftToTargetExponent spec mantissa exponent .exact =
      (⟨mantissa, false, false⟩, exponent) := by
    have hnone := shiftToExponent_mul_two_pow mantissa exponent 0
    rw [Nat.pow_zero, Nat.mul_one, Int.natCast_zero, Int.sub_zero] at hnone
    rw [shiftToTargetExponent, hcanonical, hnone]
  have hrounded : ExtendedMantissa.roundedMantissa ⟨mantissa, false, false⟩ = mantissa := rfl
  simp only [roundWithAccuracy, hfirst, hrounded, hsecond]
  rw [dif_neg hpos.ne']

theorem decreaseExponent_eq (target : Int) :
    decreaseExponent mantissa exponent target =
      (mantissa * 2 ^ (exponent - target).toNat, exponent - (exponent - target).toNat) := by
  rw [decreaseExponent, Nat.shiftLeft_eq]

end Round

/-! ## The form of a whole number -/

/-- The one form in which a whole number is held: all 53 places of the mantissa
are used. -/
def form (n : Nat) : UnpackedFloat :=
  if hpos : 0 < n then
    .finite .positive (n * 2 ^ (52 - n.log2)) ((n.log2 : Int) - 52)
      (Nat.mul_pos hpos (Nat.two_pow_pos _))
  else .zero .positive

section Form

variable {n : Nat}

theorem log2_le (hlt : n < 2 ^ 53) : n.log2 ≤ 52 := by
  rcases Nat.eq_zero_or_pos n with rfl | hpos
  · exact Nat.zero_le _
  · have hlog := (Nat.log2_lt hpos.ne').mpr hlt
    omega

theorem form_of_pos (hpos : 0 < n) :
    form n = .finite .positive (n * 2 ^ (52 - n.log2)) ((n.log2 : Int) - 52)
      (Nat.mul_pos hpos (Nat.two_pow_pos _)) :=
  dif_pos hpos

theorem log2_mantissa (hpos : 0 < n) (hlt : n < 2 ^ 53) : (n * 2 ^ (52 - n.log2)).log2 = 52 := by
  have hle := log2_le hlt
  rw [log2_mul_two_pow hpos]
  omega

theorem mantissa_bounds (hpos : 0 < n) (hlt : n < 2 ^ 53) :
    2 ^ 52 ≤ n * 2 ^ (52 - n.log2) ∧ n * 2 ^ (52 - n.log2) < 2 ^ 53 :=
  (Nat.log2_eq_iff (Nat.mul_pos hpos (Nat.two_pow_pos _)).ne').mp (log2_mantissa hpos hlt)

/-- The form has the exponent that the format wants. -/
theorem targetExponent_form (hpos : 0 < n) (hlt : n < 2 ^ 53) :
    binary64.targetExponent (totalExponent (n * 2 ^ (52 - n.log2)) ((n.log2 : Int) - 52)) =
      (n.log2 : Int) - 52 := by
  simp only [Float.Model.Format.targetExponent, totalExponent, log2_mantissa hpos hlt,
    Float.Model.Format.mantissaBits, Float.Model.Format.minExponent]
  omega

/-- However many of its places stand behind the point, rounding a whole number
gives its form. -/
theorem round_eq_form (hpos : 0 < n) (hlt : n < 2 ^ 53) (shift : Nat) :
    Float.Model.UnpackedFloat.round binary64 .positive (n * 2 ^ shift) (-shift) = form n := by
  have hle := log2_le hlt
  have htarget : binary64.targetExponent (totalExponent (n * 2 ^ shift) (-shift)) =
      (n.log2 : Int) - 52 := by
    have hsame := totalExponent_mul_two_pow hpos 0 shift
    rw [Int.zero_sub] at hsame
    rw [hsame]
    simp only [Float.Model.Format.targetExponent, totalExponent, Float.Model.Format.mantissaBits,
      Float.Model.Format.minExponent]
    omega
  -- the zeros that are added to the mantissa, and those that are then too many
  have hadded : (-(shift : Int) - ((n.log2 : Int) - 52)).toNat = 52 - n.log2 - shift := by omega
  have hmantissa : n * 2 ^ shift * 2 ^ (52 - n.log2 - shift) =
      n * 2 ^ (52 - n.log2) * 2 ^ (shift - (52 - n.log2)) := by
    rw [Nat.mul_assoc, Nat.mul_assoc, ← Nat.pow_add, ← Nat.pow_add]
    congr 2
    omega
  have hexponent : -(shift : Int) - ((52 - n.log2 - shift : Nat) : Int) =
      (n.log2 : Int) - 52 - ((shift - (52 - n.log2) : Nat) : Int) := by omega
  rw [Float.Model.UnpackedFloat.round]
  simp only [htarget, decreaseExponent_eq, hadded, hmantissa, hexponent]
  rw [roundWithAccuracy_mul_two_pow _ _ (targetExponent_form hpos hlt), form_of_pos hpos]

theorem normalize_eq_form (hlt : n < 2 ^ 53) (shift : Nat) :
    Float.Model.UnpackedFloat.normalize binary64 (n * 2 ^ shift : Nat) (-shift) .positive =
      form n := by
  rcases Nat.eq_zero_or_pos n with rfl | hpos
  · rw [Nat.zero_mul]
    rfl
  · have hcompare : compare ((n * 2 ^ shift : Nat) : Int) 0 = .gt :=
      Int.compare_eq_gt.mpr (Int.natCast_pos.mpr (Nat.mul_pos hpos (Nat.two_pow_pos shift)))
    rw [Float.Model.UnpackedFloat.normalize, hcompare]
    exact round_eq_form hpos hlt shift

/-! ## Packing -/

/-- A whole number that is not zero is packed as a normal number. -/
theorem pack_form (hpos : 0 < n) (hlt : n < 2 ^ 53) :
    Float.Model.UnpackedFloat.pack binary64 (form n) =
      packComponents binary64 .positive (BitVec.ofNat 11 (n.log2 + 1023))
        (BitVec.ofNat 52 (n * 2 ^ (52 - n.log2))) := by
  have hle := log2_le hlt
  have hbiased : ((n.log2 : Int) - 52 + binary64.exponentBias +
      binary64.mantissaBitsWithoutImplicit).toNat = n.log2 + 1023 := by
    change ((n.log2 : Int) - 52 + (1023 : Nat) + (52 : Nat)).toNat = n.log2 + 1023
    omega
  have hfinite : ¬ 2 ^ binary64.exponentBits ≤ n.log2 + 1023 + 1 := by
    change ¬ 2 ^ 11 ≤ n.log2 + 1023 + 1
    omega
  have hnormal : (n * 2 ^ (52 - n.log2)).log2 + 1 = binary64.mantissaBits := by
    rw [log2_mantissa hpos hlt]
    rfl
  rw [form_of_pos hpos, Float.Model.UnpackedFloat.pack]
  simp only [hbiased]
  rw [if_neg hfinite, if_pos hnormal]

theorem unpackSign_packComponents {spec : Float.Model.Format} (sign : Sign)
    (exponent : BitVec spec.exponentBits) (mantissa : BitVec spec.mantissaBitsWithoutImplicit) :
    Float.Model.UnpackedFloat.unpackSign (packComponents spec sign exponent mantissa) =
      sign.toBitVec := by
  ext i hi
  obtain rfl : i = 0 := by omega
  simp [Float.Model.UnpackedFloat.unpackSign, packComponents, BitVec.getLsbD_append,
    BitVec.getElem_append]

/-- The mantissa without its leading place. -/
theorem mantissa_eq (hpos : 0 < n) (hlt : n < 2 ^ 53) :
    2 ^ 52 + n * 2 ^ (52 - n.log2) % 2 ^ 52 = n * 2 ^ (52 - n.log2) := by
  obtain ⟨hge, hlt⟩ := mantissa_bounds hpos hlt
  omega

/-- Packing a whole number loses nothing. -/
theorem unpack_pack_form (hlt : n < 2 ^ 53) : (Float.Model.pack (form n)).unpack = form n := by
  rcases Nat.eq_zero_or_pos n with rfl | hpos
  · rfl
  have hle := log2_le hlt
  have hexponent : (BitVec.ofNat 11 (n.log2 + 1023)).toNat = n.log2 + 1023 :=
    Nat.mod_eq_of_lt (by omega)
  have hnotLargest : BitVec.ofNat 11 (n.log2 + 1023) ≠ -1#11 := fun heq => by
    have hnat := hexponent.symm.trans (congrArg BitVec.toNat heq)
    rw [show (-1#11).toNat = 2047 from rfl] at hnat
    omega
  have hnotSmallest : BitVec.ofNat 11 (n.log2 + 1023) ≠ 0#11 := fun heq => by
    have hnat := hexponent.symm.trans (congrArg BitVec.toNat heq)
    rw [show (0#11).toNat = 0 from rfl] at hnat
    omega
  have hmantissa : (1#1 ++ BitVec.ofNat 52 (n * 2 ^ (52 - n.log2))).toNat =
      n * 2 ^ (52 - n.log2) := by
    rw [BitVec.toNat_append, BitVec.toNat_ofNat, BitVec.toNat_ofNat, Nat.shiftLeft_eq,
      Nat.or_comm, Nat.one_mod, Nat.one_mul,
      Nat.or_two_pow_eq_add_of_lt (Nat.mod_lt _ (Nat.two_pow_pos 52)), Nat.add_comm]
    exact mantissa_eq hpos hlt
  have hbias : ((n.log2 + 1023 : Nat) : Int) -
      (binary64.exponentBias + binary64.mantissaBitsWithoutImplicit) = (n.log2 : Int) - 52 := by
    change ((n.log2 + 1023 : Nat) : Int) - ((1023 : Nat) + (52 : Nat)) = (n.log2 : Int) - 52
    omega
  have hsign : Sign.ofBitVec Sign.positive.toBitVec = .positive := rfl
  change Float.Model.UnpackedFloat.unpack binary64
    (Float.Model.UnpackedFloat.pack binary64 (form n)) = form n
  rw [pack_form hpos hlt, form_of_pos hpos, Float.Model.UnpackedFloat.unpack]
  simp only [Float.Model.UnpackedFloat.unpackMantissa_packComponents,
    Float.Model.UnpackedFloat.unpackExponent_packComponents, unpackSign_packComponents,
    if_neg hnotLargest, if_neg hnotSmallest, hexponent, hmantissa, hbias, hsign]

/-! ## Arithmetic -/

/-- The mantissa over the larger place `2 ^ -places`. -/
theorem decreaseExponent_form (hlt : n < 2 ^ 53) {places : Nat} (hplaces : 52 - n.log2 ≤ places) :
    (decreaseExponent (n * 2 ^ (52 - n.log2)) ((n.log2 : Int) - 52) (-places)).1 =
      n * 2 ^ places := by
  have hle := log2_le hlt
  have hamount : ((n.log2 : Int) - 52 - (-places : Int)).toNat = places - (52 - n.log2) := by omega
  rw [decreaseExponent_eq, hamount, Nat.mul_assoc, ← Nat.pow_add, Nat.add_sub_cancel' hplaces]

theorem add_form {a b : Nat} (hlt : a + b < 2 ^ 53) :
    UnpackedFloat.add binary64 (form a) (form b) = form (a + b) := by
  rcases Nat.eq_zero_or_pos a with rfl | ha
  · rw [Nat.zero_add]
    rcases Nat.eq_zero_or_pos b with rfl | hb
    · rfl
    · rw [form_of_pos hb]
      rfl
  rcases Nat.eq_zero_or_pos b with rfl | hb
  · rw [Nat.add_zero, form_of_pos ha]
    rfl
  have haLt : a < 2 ^ 53 := by omega
  have hbLt : b < 2 ^ 53 := by omega
  have haLog := log2_le haLt
  have hbLog := log2_le hbLt
  -- both numbers are counted in units of the finer one's last place
  obtain ⟨places, hplaces⟩ : ∃ places, places = max (52 - a.log2) (52 - b.log2) := ⟨_, rfl⟩
  have hmin : min ((a.log2 : Int) - 52) ((b.log2 : Int) - 52) = -places := by omega
  have haMantissa := decreaseExponent_form haLt (show 52 - a.log2 ≤ places by omega)
  have hbMantissa := decreaseExponent_form hbLt (show 52 - b.log2 ≤ places by omega)
  have hsum : Sign.positive.apply (a * 2 ^ places : Nat) +
      Sign.positive.apply (b * 2 ^ places : Nat) = ((a + b) * 2 ^ places : Nat) := by
    rw [Nat.add_mul]
    rfl
  rw [form_of_pos ha, form_of_pos hb, UnpackedFloat.add]
  simp only [hmin, haMantissa, hbMantissa, hsum]
  exact normalize_eq_form hlt places

theorem toInt_form (hlt : n < 2 ^ 53) (low high : Int) : (form n).toInt low high = n := by
  rcases Nat.eq_zero_or_pos n with rfl | hpos
  · rfl
  have hle := log2_le hlt
  have hnone : ((n.log2 : Int) - 52 - 0).toNat = 0 := by omega
  have hshift := shiftToExponent_mul_two_pow n 0 (52 - n.log2)
  have hexponent : (0 : Int) - (52 - n.log2 : Nat) = (n.log2 : Int) - 52 := by omega
  rw [hexponent] at hshift
  rw [form_of_pos hpos, UnpackedFloat.toInt, Float.Model.UnpackedFloat.roundToInt,
    decreaseExponent_eq, hnone]
  simp only [Nat.pow_zero, Nat.mul_one, Int.natCast_zero, Int.sub_zero, hshift]
  rfl

theorem toUInt64_form (hlt : n < 2 ^ 53) : (form n).toUInt64.toNat = n := by
  have hword : n < UInt64.size := Nat.lt_trans hlt (by decide)
  rw [UnpackedFloat.toUInt64, toInt_form hlt, Int.toNat_natCast, UInt64.ofNatClamp_eq_ofNat n hword]
  exact UInt64.toNat_ofNat_of_lt hword

/-- Multiplying by one, as the product of two mantissas, is exact. -/
theorem mul_form_one (hlt : n < 2 ^ 53) :
    UnpackedFloat.mul binary64 (form n) (form 1) = form n := by
  rcases Nat.eq_zero_or_pos n with rfl | hpos
  · rfl
  · have hone : form 1 = .finite .positive (2 ^ 52) (-52) (Nat.two_pow_pos 52) := rfl
    have hsign : Sign.positive * Sign.positive = .positive := rfl
    rw [hone, form_of_pos hpos, UnpackedFloat.mul, hsign]
    exact roundWithAccuracy_mul_two_pow _ _ (targetExponent_form hpos hlt) 52

/-- The forms of whole numbers are ordered as the numbers are. -/
theorem le_form {a b : Nat} (hle : a ≤ b) : (form a).le (form b) = true := by
  rcases Nat.eq_zero_or_pos b with rfl | hb
  · rw [Nat.le_zero.mp hle]
    rfl
  rcases Nat.eq_zero_or_pos a with rfl | ha
  · rw [form_of_pos hb]
    rfl
  rw [form_of_pos ha, form_of_pos hb]
  change ((compare ((a.log2 : Int) - 52) ((b.log2 : Int) - 52)).then
    (compare (a * 2 ^ (52 - a.log2)) (b * 2 ^ (52 - b.log2)))).isLE = true
  have hlog : a.log2 ≤ b.log2 :=
    (Nat.le_log2 hb.ne').mpr (Nat.le_trans (Nat.log2_self_le ha.ne') hle)
  rcases Nat.lt_or_eq_of_le hlog with hlt | heq
  · have hexponents : compare ((a.log2 : Int) - 52) ((b.log2 : Int) - 52) = .lt :=
      Std.compare_eq_lt.mpr (by omega)
    rw [hexponents]
    rfl
  · have hexponents : compare ((b.log2 : Int) - 52) ((b.log2 : Int) - 52) = .eq :=
      Std.compare_self
    rw [heq, hexponents]
    exact Std.isLE_compare.mpr (Nat.mul_le_mul_right _ hle)

end Form

end ProgramGraphs.Whole

namespace ProgramGraphs

open Float.Model.Format (binary64)
open Whole

variable {n : Nat}

/-- A whole number is held in its form. -/
theorem ofNat_eq_pack (hlt : n < 2 ^ 53) : Float.ofNat n = .ofModel (.pack (form n)) := by
  have hword : n.toUInt64.toNat = n :=
    UInt64.toNat_ofNat_of_lt (Nat.lt_trans hlt (by decide))
  have hfast : Float.ofNat n = n.toUInt64.toFloat * Float.ofBits 0x3FF0000000000000 :=
    dif_pos ⟨hlt, Nat.zero_le 22⟩
  have hfactor : (n.toUInt64.toFloat).toModel = .pack (form n) := by
    have hconverted : (n.toUInt64.toFloat).toModel =
        .pack (.normalize binary64 n.toUInt64.toNat 0 .positive) := rfl
    have hform := normalize_eq_form hlt 0
    rw [Nat.pow_zero, Nat.mul_one, Int.natCast_zero, Int.neg_zero] at hform
    rw [hconverted, hword, hform]
  have hproduct : n.toUInt64.toFloat * Float.ofBits 0x3FF0000000000000 = .ofModel (.pack
      (.mul binary64 (n.toUInt64.toFloat).toModel.unpack (form 1))) := rfl
  rw [hfast, hproduct, hfactor, unpack_pack_form hlt, mul_form_one hlt]

theorem unpack_ofNat (hlt : n < 2 ^ 53) : (Float.ofNat n).toModel.unpack = form n := by
  rw [ofNat_eq_pack hlt]
  exact unpack_pack_form hlt

/-- **Sums of whole numbers are exact** below `2 ^ 53`. -/
theorem ofNat_add_ofNat {a b : Nat} (hlt : a + b < 2 ^ 53) :
    Float.ofNat a + Float.ofNat b = Float.ofNat (a + b) := by
  have hsum : (Float.ofNat a + Float.ofNat b).toModel = .pack
      (.add binary64 (Float.ofNat a).toModel.unpack (Float.ofNat b).toModel.unpack) := rfl
  rw [unpack_ofNat (by omega), unpack_ofNat (by omega), add_form hlt] at hsum
  rw [ofNat_eq_pack hlt, ← hsum]

/-- A whole number comes back from a double as it was. -/
theorem toUInt64_ofNat (hlt : n < 2 ^ 53) : (Float.ofNat n).toUInt64.toNat = n := by
  have hword : (Float.ofNat n).toUInt64 = (Float.ofNat n).toModel.unpack.toUInt64 := rfl
  rw [hword, unpack_ofNat hlt, toUInt64_form hlt]

/-- Doubles order whole numbers as usual. -/
theorem ofNat_le_ofNat {a b : Nat} (hle : a ≤ b) (hlt : b < 2 ^ 53) :
    Float.ofNat a ≤ Float.ofNat b := by
  have hmodel : (Float.ofNat a).toModel ≤ (Float.ofNat b).toModel := by
    change (Float.ofNat a).toModel.unpack.le (Float.ofNat b).toModel.unpack = true
    rw [unpack_ofNat (Nat.lt_of_le_of_lt hle hlt), unpack_ofNat hlt]
    exact le_form hle
  exact decide_eq_true hmodel

end ProgramGraphs
