import Mathlib
import DesignLayout.Decimal.Numeral

/-! Doubles by their bits.

A double is finite when the eleven bits of its exponent are not all set (`isFinite_iff`), the double
nearest to a fraction is finite unless it is infinite (`isFinite_nearest`), and so is the double of
a whole number of at most 64 bits (`isFinite_ofInt`). -/
namespace DesignLayout.Decimal.Binary64

open Float.Model Float.Model.UnpackedFloat

/-! ### Patterns of bits -/

theorem toNat_unpackMantissa (b : BitVec 64) :
    (@unpackMantissa Format.binary64 b).toNat = b.toNat % 2 ^ 52 := by
  simp [unpackMantissa_def, BitVec.extractLsb'_toNat]

theorem toNat_unpackExponent (b : BitVec 64) :
    (@unpackExponent Format.binary64 b).toNat = b.toNat / 2 ^ 52 % 2 ^ 11 := by
  simp [unpackExponent_def, BitVec.extractLsb'_toNat, Nat.shiftRight_eq_div_pow]

theorem unpackExponent_eq_iff (b : BitVec 64) :
    @unpackExponent Format.binary64 b = -1#11 ↔ b.toNat / 2 ^ 52 % 2 ^ 11 = 2047 := by
  rw [← toNat_unpackExponent]
  exact ⟨fun h => by rw [h]; rfl, fun h => BitVec.eq_of_toNat_eq h⟩

theorem unpackMantissa_eq_iff (b : BitVec 64) :
    @unpackMantissa Format.binary64 b = 0#52 ↔ b.toNat % 2 ^ 52 = 0 := by
  rw [← toNat_unpackMantissa]
  exact ⟨fun h => by rw [h]; rfl, fun h => BitVec.eq_of_toNat_eq h⟩

theorem isFinite_unpack (b : BitVec 64) :
    (UnpackedFloat.unpack Format.binary64 b).isFinite = true ↔
      b.toNat / 2 ^ 52 % 2 ^ 11 ≠ 2047 := by
  rw [ne_eq, ← unpackExponent_eq_iff, UnpackedFloat.unpack]
  dsimp only
  split_ifs with hexp hman hzero hman
  · exact ⟨nofun, fun h => absurd hexp h⟩
  · exact ⟨nofun, fun h => absurd hexp h⟩
  · exact ⟨fun _ => hexp, fun _ => rfl⟩
  · exact ⟨fun _ => hexp, fun _ => rfl⟩
  · exact ⟨fun _ => hexp, fun _ => rfl⟩

/-- A double is finite when the bits of its exponent are not all set. -/
theorem isFinite_iff (x : Float) : x.isFinite = true ↔ x.toBits.toNat / 2 ^ 52 % 2 ^ 11 ≠ 2047 :=
  isFinite_unpack x.toBits.toBitVec

theorem isInf_of_isFinite {x : Float} (h : x.isFinite = true) : x.isInf = false := by
  change (UnpackedFloat.unpack Format.binary64 x.toBits.toBitVec).isFinite = true at h
  change (UnpackedFloat.unpack Format.binary64 x.toBits.toBitVec).isInf = false
  generalize UnpackedFloat.unpack Format.binary64 x.toBits.toBitVec = u at h
  cases u with
  | infinity s => cases h
  | _ => rfl

/-- A pattern that is no NaN is kept by the double that it is made into. -/
theorem toBits_ofBits {b : UInt64}
    (h : b.toNat / 2 ^ 52 % 2 ^ 11 = 2047 → b.toNat % 2 ^ 52 = 0) :
    (Float.ofBits b).toBits = b := by
  have hvalid : Format.binary64.Valid b.toBitVec := by
    refine ⟨fun hexp hman => absurd ?_ hman⟩
    exact (unpackMantissa_eq_iff _).mpr (h ((unpackExponent_eq_iff _).mp hexp))
  exact congrArg UInt64.ofBitVec (pack_unpack_of_valid hvalid)

theorem isInf_ofBits {b : UInt64} (hexp : b.toNat / 2 ^ 52 % 2 ^ 11 = 2047)
    (hman : b.toNat % 2 ^ 52 = 0) : (Float.ofBits b).isInf = true := by
  have hbits := toBits_ofBits fun _ => hman
  change (UnpackedFloat.unpack Format.binary64 (Float.ofBits b).toBits.toBitVec).isInf = true
  rw [hbits, UnpackedFloat.unpack]
  dsimp only
  rw [if_pos ((unpackExponent_eq_iff _).mpr hexp), if_pos ((unpackMantissa_eq_iff _).mpr hman)]
  rfl

/-! ### The nearest double -/

theorem nearestBits_le (num den : Nat) : nearestBits num den ≤ infinityBits := by
  rw [nearestBits]
  split
  · exact Nat.zero_le _
  · exact Nat.min_le_right ..

/-- The bits of the double nearest to a fraction, with the sign. -/
def signedBits (negative : Bool) (num den : Nat) : Nat :=
  if negative then nearestBits num den + signBit else nearestBits num den

theorem signedBits_lt (negative : Bool) (num den : Nat) : signedBits negative num den < 2 ^ 64 := by
  have hle := nearestBits_le num den
  rw [infinityBits, hiddenBit] at hle
  rw [signedBits, signBit]
  split <;> omega

/-- The bits of an exponent are all set in infinity only. -/
theorem signedBits_infinite {negative : Bool} {num den : Nat}
    (h : signedBits negative num den / 2 ^ 52 % 2 ^ 11 = 2047) :
    signedBits negative num den % 2 ^ 52 = 0 := by
  have hle := nearestBits_le num den
  rw [infinityBits, hiddenBit] at hle
  cases negative with
  | false =>
    rw [signedBits, if_neg Bool.false_ne_true] at h ⊢
    omega
  | true =>
    rw [signedBits, if_pos rfl, signBit] at h ⊢
    omega

theorem toBits_nearest (negative : Bool) (num den : Nat) :
    (nearest negative num den).toBits.toNat = signedBits negative num den := by
  have hnat : (UInt64.ofNat (signedBits negative num den)).toNat = signedBits negative num den :=
    UInt64.toNat_ofNat_of_lt (signedBits_lt negative num den)
  have hbits := toBits_ofBits (b := UInt64.ofNat (signedBits negative num den)) fun h => by
    rw [hnat] at h ⊢
    exact signedBits_infinite h
  exact (congrArg UInt64.toNat hbits).trans hnat

/-- The double nearest to a fraction is a number or infinite. -/
theorem isFinite_nearest {negative : Bool} {num den : Nat}
    (h : (nearest negative num den).isInf = false) :
    (nearest negative num den).isFinite = true := by
  rw [isFinite_iff, toBits_nearest]
  intro hexp
  have hnat : (UInt64.ofNat (signedBits negative num den)).toNat = signedBits negative num den :=
    UInt64.toNat_ofNat_of_lt (signedBits_lt negative num den)
  have hinf : (nearest negative num den).isInf = true :=
    isInf_ofBits (b := UInt64.ofNat (signedBits negative num den)) (by rw [hnat]; exact hexp)
      (by rw [hnat]; exact signedBits_infinite hexp)
  exact Bool.false_ne_true (h.symm.trans hinf)

/-! ### Whole numbers -/

theorem mantissa_shiftRight_le (em : ExtendedMantissa) (n : Nat) :
    (em >>> n).mantissa ≤ em.mantissa := by
  change (n.repeat ExtendedMantissa.shiftRightOne em).mantissa ≤ em.mantissa
  induction n with
  | zero => exact Nat.le_refl _
  | succ n ih => exact Nat.le_trans (Nat.div_le_self _ _) ih

theorem roundedMantissa_le (em : ExtendedMantissa) : em.roundedMantissa ≤ em.mantissa + 1 := by
  rw [ExtendedMantissa.roundedMantissa]
  rcases em.accuracy with _ | _ | _ | _ <;> simp only [Accuracy.roundToNearestEven] <;> omega

theorem mantissa_ofMantissaAndAccuracy (m : Nat) (acc : Accuracy) :
    (ExtendedMantissa.ofMantissaAndAccuracy m acc).mantissa = m := by
  rcases acc with _ | _ | _ | _ <;> rfl

/-- Shifting to the exponent that doubles ask for. -/
theorem shiftToTargetExponent_le {m : Nat} {e bound : Int} (acc : Accuracy) (hm : m < 2 ^ 118)
    (he : e ≤ bound) (hbound : 0 ≤ bound) :
    (shiftToTargetExponent Format.binary64 m e acc).1.mantissa ≤ m ∧
      (shiftToTargetExponent Format.binary64 m e acc).2 ≤ bound + 65 := by
  constructor
  · exact (mantissa_shiftRight_le _ _).trans (mantissa_ofMantissaAndAccuracy m acc).le
  · have hlog : m.log2 ≤ 117 := by
      rcases Nat.eq_zero_or_pos m with rfl | hpos
      · decide
      · exact Nat.lt_succ_iff.mp ((Nat.log2_lt (by omega)).mpr hm)
    change e + ((max ((m.log2 : Int) + 1 + e - 53) (-1074) - e).toNat : Int) ≤ bound + 65
    omega

/-- Finite, and the exponent is at most so large. -/
inductive Moderate (bound : Int) : UnpackedFloat → Prop
  | zero (s : UnpackedFloat.Sign) : Moderate bound (.zero s)
  | finite {s : UnpackedFloat.Sign} {m : Nat} {e : Int} {h : 0 < m} (he : e ≤ bound) :
    Moderate bound (.finite s m e h)

theorem Moderate.isFinite {u : UnpackedFloat} {bound : Int} (h : Moderate bound u) :
    u.isFinite = true := by
  cases h <;> rfl

theorem Moderate.neg {u : UnpackedFloat} {bound : Int} (h : Moderate bound u) :
    Moderate bound u.neg := by
  cases h with
  | zero s => exact .zero _
  | finite he => exact .finite he

/-- Rounding shifts twice, before and after the mantissa is rounded. -/
theorem moderate_roundWithAccuracy {s : UnpackedFloat.Sign} {m : Nat} {e bound : Int}
    {acc : Accuracy}
    (hm : m < 2 ^ 117) (he : e + 130 ≤ bound) (hbound : 130 ≤ bound) :
    Moderate bound (roundWithAccuracy Format.binary64 s m e acc) := by
  have hm' : m < 2 ^ 118 := by omega
  have he' : e ≤ bound - 130 := by omega
  obtain ⟨hmantissa, hexponent⟩ := shiftToTargetExponent_le acc hm' he' (by omega)
  have hrounded := roundedMantissa_le (shiftToTargetExponent Format.binary64 m e acc).1
  have hlt : (shiftToTargetExponent Format.binary64 m e acc).1.roundedMantissa < 2 ^ 118 := by
    omega
  obtain ⟨-, hfinal⟩ := shiftToTargetExponent_le .exact hlt hexponent (by omega)
  rw [roundWithAccuracy]
  dsimp only
  split
  · exact .zero s
  · exact .finite (hfinal.trans (by omega))

theorem moderate_unpack {b : BitVec 64} {bound : Int} (hbound : 0 ≤ bound) (hsmall : bound ≤ 900)
    (h : (@unpackExponent Format.binary64 b).toNat ≤ bound + 1075) :
    Moderate bound (UnpackedFloat.unpack Format.binary64 b) := by
  rw [UnpackedFloat.unpack]
  dsimp only
  have hbias : (Format.binary64.exponentBias + Format.binary64.mantissaBitsWithoutImplicit : Int) =
      1075 := rfl
  split_ifs with hexp hman hzero hman
  · rw [hexp] at h
    change (2047 : Int) ≤ _ at h
    omega
  · rw [hexp] at h
    change (2047 : Int) ≤ _ at h
    omega
  · exact .zero _
  · refine .finite ?_
    rw [hzero, hbias]
    change (0 : Int) - 1075 + 1 ≤ bound
    omega
  · refine .finite ?_
    rw [hbias]
    change ((@unpackExponent Format.binary64 b).toNat : Int) - 1075 ≤ bound
    omega

/-- Nothing that is packed becomes larger. -/
theorem moderate_unpack_pack {u : UnpackedFloat} {bound : Int} (h : Moderate bound u)
    (hbound : 0 ≤ bound) (hsmall : bound ≤ 900) :
    Moderate bound
      (UnpackedFloat.unpack Format.binary64 (UnpackedFloat.pack Format.binary64 u)) := by
  refine moderate_unpack hbound hsmall ?_
  cases h with
  | zero s =>
    rw [UnpackedFloat.pack, packedZero, unpackExponent_packComponents]
    change (0 : Int) ≤ _
    omega
  | @finite s m e hm he =>
    have hbias : e + Format.binary64.exponentBias +
        Format.binary64.mantissaBitsWithoutImplicit = e + 1075 := by
      change e + 1023 + 52 = _
      omega
    rw [UnpackedFloat.pack]
    dsimp only
    rw [hbias, if_neg (by change ¬2048 ≤ _; omega)]
    split
    · rw [unpackExponent_packComponents, BitVec.toNat_ofNat]
      change ((((e + 1075).toNat % 2048 : Nat)) : Int) ≤ _
      omega
    · rw [unpackExponent_packComponents]
      change (0 : Int) ≤ _
      omega

def mantissaOf : UnpackedFloat → Nat
  | .finite _ m _ _ => m
  | _ => 0

theorem mantissaOf_unpack_lt (b : BitVec 64) :
    mantissaOf (UnpackedFloat.unpack Format.binary64 b) < 2 ^ 53 := by
  rw [UnpackedFloat.unpack]
  dsimp only
  split_ifs
  · exact Nat.two_pow_pos 53
  · exact Nat.two_pow_pos 53
  · exact Nat.two_pow_pos 53
  · exact (@unpackMantissa Format.binary64 b).isLt.trans (by decide)
  · exact (1#1 ++ @unpackMantissa Format.binary64 b).isLt

theorem moderate_mul {u v : UnpackedFloat} {a b c : Int} (hu : Moderate a u) (hv : Moderate b v)
    (hm : mantissaOf u * mantissaOf v < 2 ^ 117) (habc : a + b + 130 ≤ c) (hc : 130 ≤ c) :
    Moderate c (mul Format.binary64 u v) := by
  cases hu with
  | zero s => cases hv <;> exact .zero _
  | finite he =>
    cases hv with
    | zero s => exact .zero _
    | finite he' => exact moderate_roundWithAccuracy hm (by omega) hc

theorem moderate_round {s : UnpackedFloat.Sign} {n : Nat} (hn : n < 2 ^ 64) :
    Moderate 130 (UnpackedFloat.round Format.binary64 s n 0) := by
  have hlog : n.log2 ≤ 63 := by
    rcases Nat.eq_zero_or_pos n with rfl | hpos
    · decide
    · exact Nat.lt_succ_iff.mp ((Nat.log2_lt (by omega)).mpr hn)
  have hshift : (0 - Format.binary64.targetExponent (totalExponent n 0)).toNat ≤ 52 := by
    change (0 - max ((n.log2 : Int) + 1 + 0 - 53) (-1074)).toNat ≤ 52
    omega
  rw [UnpackedFloat.round, decreaseExponent]
  refine moderate_roundWithAccuracy ?_ (by omega) (Int.le_refl 130)
  rw [Nat.shiftLeft_eq]
  calc n * 2 ^ (0 - Format.binary64.targetExponent (totalExponent n 0)).toNat
    _ ≤ n * 2 ^ 52 := Nat.mul_le_mul_left n (Nat.pow_le_pow_right (by omega) hshift)
    _ < 2 ^ 117 := by omega

theorem moderate_ofNat {n : Nat} (hn : n < 2 ^ 64) :
    Moderate 130 (UnpackedFloat.ofNat Format.binary64 n) := by
  rw [UnpackedFloat.ofNat, UnpackedFloat.ofInt, UnpackedFloat.normalize]
  split
  · rename_i hlt
    exact absurd (Int.compare_eq_lt.mp hlt) (by omega)
  · exact .zero _
  · exact moderate_round hn

theorem moderate_ofScientific {n : Nat} (hn : n < 2 ^ 64) :
    Moderate 900 (UnpackedFloat.ofScientific Format.binary64 n 0) := by
  rw [UnpackedFloat.ofScientific]
  by_cases hzero : n = 0
  · rw [dif_pos hzero]
    exact .zero _
  · have hlarge : ¬((0 : Int) > 2 ^ Format.binary64.exponentBits) := by norm_num
    have hsmall : ¬((0 : Int) < -((2 ^ Format.binary64.exponentBits : Int) + n.log2)) := by
      norm_num
    have hmantissa : n <<< 53 * 1 < 2 ^ 117 := by
      rw [Nat.shiftLeft_eq]
      omega
    rw [dif_neg hzero, if_neg hlarge, if_neg hsmall, if_pos (Int.le_refl 0)]
    exact moderate_mul (a := 0) (b := 0) (.finite (by decide)) (.finite (by decide)) hmantissa
      (by decide) (by decide)

/-- What stays of a value that is packed into a double. -/
theorem moderate_ofModel {u : UnpackedFloat} (h : Moderate 900 u) :
    Moderate 900 (Float.ofModel (Float.Model.pack u)).toModel.unpack :=
  moderate_unpack_pack h (by decide) (by decide)

/-- A number of at most 53 bits is multiplied by one, any other is rounded at once. -/
theorem moderate_natCast {n : Nat} (hn : n < 2 ^ 64) :
    Moderate 900 (Float.ofNat n).toModel.unpack := by
  rw [Float.ofNat]
  change Moderate 900 (Float.ofScientific n false 0).toModel.unpack
  rw [Float.ofScientific]
  split
  · have hone : Moderate 0 (Float.ofBits 0x3FF0000000000000).toModel.unpack := by
      refine moderate_unpack (Int.le_refl 0) (by decide) ?_
      decide +kernel
    have hn : Moderate 130 n.toUInt64.toFloat.toModel.unpack :=
      moderate_unpack_pack (moderate_ofNat n.toUInt64.toNat_lt) (by decide) (by decide)
    have hmantissa : mantissaOf n.toUInt64.toFloat.toModel.unpack *
        mantissaOf (Float.ofBits 0x3FF0000000000000).toModel.unpack < 2 ^ 117 := by
      calc _
        _ ≤ 2 ^ 53 * 2 ^ 53 :=
          Nat.mul_le_mul (mantissaOf_unpack_lt _).le (mantissaOf_unpack_lt _).le
        _ < 2 ^ 117 := by decide
    exact moderate_ofModel (moderate_mul hn hone hmantissa (by decide) (by decide))
  · exact moderate_ofModel (moderate_ofScientific hn)

/-- The double of a whole number of at most 64 bits is finite. -/
theorem isFinite_ofInt {n : Int} (hn : n.natAbs < 2 ^ 64) : (Float.ofInt n).isFinite = true := by
  cases n with
  | ofNat n => exact (moderate_natCast hn).isFinite
  | negSucc n => exact (moderate_ofModel (moderate_natCast hn).neg).isFinite

end DesignLayout.Decimal.Binary64
