import Mathlib.Tactic.NormNum

/-!
# Whole numbers as floats

A whole number of 64 bits is far below the greatest float, so as a float it is finite. The proof
follows the rounding: it shifts the digits down to the precision of the format at most twice, and
neither shift takes the exponent near the limit of the format. Main statement:
`isFinite_toFloat`.
-/

set_option autoImplicit false

namespace ResourceQuery.Decimal

open Float.Model Float.Model.UnpackedFloat

/-! ## Packing -/

/-- A float that the format has room for: zero, or an exponent below that of infinity. -/
def Fits : UnpackedFloat → Prop
  | .zero _ => True
  | .finite _ _ exponent _ => exponent < 971
  | _ => False

/-- A float with another exponent than the greatest is finite. -/
theorem isFinite_unpack_of_ne {word : BitVec Format.binary64.numBits}
    (h : @unpackExponent Format.binary64 word ≠ -1#_) :
    (UnpackedFloat.unpack Format.binary64 word).isFinite = true := by
  have hunpack : UnpackedFloat.unpack Format.binary64 word = _ := if_neg h
  rw [hunpack]
  by_cases hsubnormal : @unpackExponent Format.binary64 word = 0#_
  · rw [if_pos hsubnormal]
    by_cases hmantissa : @unpackMantissa Format.binary64 word = 0#_
    · rw [dif_pos hmantissa]
      rfl
    · rw [dif_neg hmantissa]
      rfl
  · rw [if_neg hsubnormal]
    rfl

theorem isFinite_unpack_pack {float : UnpackedFloat} (h : Fits float) :
    (UnpackedFloat.unpack Format.binary64
      (UnpackedFloat.pack Format.binary64 float)).isFinite = true := by
  cases float with
  | infinity sign => exact h.elim
  | notANumber => exact h.elim
  | zero sign =>
      refine isFinite_unpack_of_ne ?_
      show unpackExponent (packComponents Format.binary64 sign 0 0) ≠ -1#_
      rw [unpackExponent_packComponents]
      decide
  -- the exponent has room for its bias, and does not come to that of infinity
  | finite sign mantissa exponent hpos =>
      refine isFinite_unpack_of_ne ?_
      have hexponent : exponent < 971 := h
      have hbias : Format.binary64.exponentBias = 1023 := by decide
      have hroom : ¬ 2 ^ Format.binary64.exponentBits
          ≤ (exponent + Format.binary64.exponentBias
              + Format.binary64.mantissaBitsWithoutImplicit).toNat + 1 := by
        rw [hbias]
        show ¬ 2 ^ 11 ≤ (exponent + 1023 + 52).toNat + 1
        omega
      have hpack : UnpackedFloat.pack Format.binary64 (.finite sign mantissa exponent hpos)
          = if mantissa.log2 + 1 = Format.binary64.mantissaBits then
              packComponents Format.binary64 sign
                (.ofNat _ (exponent + Format.binary64.exponentBias
                  + Format.binary64.mantissaBitsWithoutImplicit).toNat) (.ofNat _ mantissa)
            else packComponents Format.binary64 sign (0#_) (.ofNat _ mantissa) := if_neg hroom
      rw [hpack]
      split
      · rw [unpackExponent_packComponents]
        -- all ones in the exponent would make it too large
        intro heq
        have hword := congrArg BitVec.toNat heq
        rw [BitVec.toNat_ofNat, hbias] at hword
        have hall : (-1#11).toNat = 2047 := by decide
        have hlt : (exponent + 1023 + 52).toNat % 2 ^ 11 = 2047 := hword.trans hall
        omega
      · rw [unpackExponent_packComponents]
        decide

/-! ## Rounding -/

theorem mantissa_shift_le (extended : ExtendedMantissa) (count : Nat) :
    (extended >>> count).mantissa ≤ extended.mantissa := by
  show (count.repeat ExtendedMantissa.shiftRightOne extended).mantissa ≤ _
  induction count with
  | zero => exact Nat.le_refl _
  | succ count ih => exact Nat.le_trans (Nat.div_le_self _ _) ih

theorem roundToNearestEven_le (mantissa : Nat) (accuracy : Accuracy) :
    accuracy.roundToNearestEven mantissa ≤ mantissa + 1 := by
  unfold Accuracy.roundToNearestEven
  split <;> omega

theorem roundedMantissa_shift_le (mantissa : Nat) (exponent target : Int) :
    (shiftToExponent mantissa exponent .exact target).1.roundedMantissa ≤ mantissa + 1 := by
  have hshift := mantissa_shift_le (ExtendedMantissa.ofMantissaAndAccuracy mantissa .exact)
    (target - exponent).toNat
  have hround := roundToNearestEven_le
    (shiftToExponent mantissa exponent .exact target).1.mantissa
    (shiftToExponent mantissa exponent .exact target).1.accuracy
  have hstart : (ExtendedMantissa.ofMantissaAndAccuracy mantissa .exact).mantissa = mantissa := rfl
  rw [hstart] at hshift
  exact Nat.le_trans hround (Nat.succ_le_succ hshift)

/-- The exponent of a shifted number: its own, or that which leaves 53 digits, or the least. -/
theorem exponent_shift (mantissa : Nat) (exponent : Int) (accuracy : Accuracy) :
    (shiftToTargetExponent Format.binary64 mantissa exponent accuracy).2
      = max exponent (max (mantissa.log2 + 1 + exponent - 53) (-1074)) := by
  have hmin : Format.binary64.minExponent = -1074 := by decide
  have htarget : Format.binary64.targetExponent (totalExponent mantissa exponent)
      = max (mantissa.log2 + 1 + exponent - 53) (-1074) := by
    rw [Format.targetExponent, hmin]
    rfl
  rw [shiftToTargetExponent, htarget]
  show exponent + ((max (mantissa.log2 + 1 + exponent - 53) (-1074) - exponent).toNat : Int) = _
  omega

theorem log2_le {mantissa count : Nat} (h : mantissa < 2 ^ (count + 1)) :
    mantissa.log2 ≤ count := by
  by_cases hzero : mantissa = 0
  · subst hzero
    exact Nat.zero_le _
  · exact Nat.le_of_lt_succ ((Nat.log2_lt hzero).mpr h)

theorem fits_roundWithAccuracy {sign : Sign} {mantissa : Nat} {exponent : Int}
    (hmantissa : mantissa < 2 ^ 200) (hexponent : exponent ≤ 0) :
    Fits (roundWithAccuracy Format.binary64 sign mantissa exponent .exact) := by
  have hfirst := exponent_shift mantissa exponent .exact
  have hlog : mantissa.log2 ≤ 199 := log2_le hmantissa
  -- rounding may carry into one more digit, which the second shift drops
  have hcarry : (shiftToTargetExponent Format.binary64 mantissa exponent .exact).1.roundedMantissa
      < 2 ^ 201 := by
    have hle := roundedMantissa_shift_le mantissa exponent
      (Format.binary64.targetExponent (totalExponent mantissa exponent))
    have hpow : (2 : Nat) ^ 201 = 2 * 2 ^ 200 := by norm_num
    refine Nat.lt_of_le_of_lt hle ?_
    omega
  have hsecond := exponent_shift
    (shiftToTargetExponent Format.binary64 mantissa exponent .exact).1.roundedMantissa
    (shiftToTargetExponent Format.binary64 mantissa exponent .exact).2 .exact
  have hlog' := log2_le hcarry
  rw [roundWithAccuracy]
  dsimp only
  by_cases hzero : (shiftToTargetExponent Format.binary64
      (shiftToTargetExponent Format.binary64 mantissa exponent .exact).1.roundedMantissa
      (shiftToTargetExponent Format.binary64 mantissa exponent .exact).2 .exact).1.mantissa = 0
  · rw [dif_pos hzero]
    trivial
  · rw [dif_neg hzero]
    show (shiftToTargetExponent Format.binary64
      (shiftToTargetExponent Format.binary64 mantissa exponent .exact).1.roundedMantissa
      (shiftToTargetExponent Format.binary64 mantissa exponent .exact).2 .exact).2 < 971
    rw [hsecond]
    omega

theorem fits_round {mantissa : Nat} (h : mantissa < 2 ^ 64) :
    Fits (UnpackedFloat.round Format.binary64 .positive mantissa 0) := by
  have hmin : Format.binary64.minExponent = -1074 := by decide
  have htarget : -52 ≤ Format.binary64.targetExponent (totalExponent mantissa 0) := by
    rw [Format.targetExponent, hmin]
    show -52 ≤ max ((mantissa.log2 : Int) + 1 + 0 - 53) (-1074)
    omega
  rw [UnpackedFloat.round, decreaseExponent]
  refine fits_roundWithAccuracy ?_ (by omega)
  -- at most 52 digits are added at the end
  have hshift : (0 - Format.binary64.targetExponent (totalExponent mantissa 0)).toNat ≤ 52 := by
    omega
  calc mantissa <<< (0 - Format.binary64.targetExponent (totalExponent mantissa 0)).toNat
      = mantissa * 2 ^ (0 - Format.binary64.targetExponent (totalExponent mantissa 0)).toNat :=
        Nat.shiftLeft_eq ..
    _ ≤ mantissa * 2 ^ 52 := Nat.mul_le_mul_left _ (Nat.pow_le_pow_right (by decide) hshift)
    _ < 2 ^ 64 * 2 ^ 52 := Nat.mul_lt_mul_of_pos_right h (by decide)
    _ < 2 ^ 200 := by norm_num

/-- A whole number of 64 bits is finite as a float. -/
theorem isFinite_toFloat (value : UInt64) : value.toFloat.isFinite = true := by
  have hfits : Fits (UnpackedFloat.ofUInt64 Format.binary64 value) := by
    rw [UnpackedFloat.ofUInt64, UnpackedFloat.ofNat, UnpackedFloat.ofInt,
      UnpackedFloat.normalize]
    split
    · rename_i hlt
      rw [Int.compare_eq_lt] at hlt
      omega
    · trivial
    · rename_i hgt
      rw [Int.compare_eq_gt] at hgt
      -- a whole number of 64 bits is far below the greatest float
      exact fits_round (by have := value.toNat_lt; omega)
  exact isFinite_unpack_pack hfits

end ResourceQuery.Decimal
