import HtmlTemplate.Number.Double
import Mathlib

/-! The parts of a double. Arithmetic unpacks the 64 bits of its operands and packs its result,
so what the parts of a result are is said by the unpacked number, if that survives the packing.
The parts that are read off the bits by division are the same. -/
namespace HtmlTemplate.Double

open Float.Model Float.Model.UnpackedFloat

/-- Whether a sign is the negative one. -/
def isMinus : Sign → Bool
  | .negative => true
  | .positive => false

/-- The parts of an unpacked number. -/
def ofUnpacked : UnpackedFloat → Double
  | .notANumber => .notANumber
  | .infinity sign => .infinite (isMinus sign)
  | .zero sign => .finite (isMinus sign) 0 (-1074)
  | .finite sign significand exponent _ => .finite (isMinus sign) significand exponent

section

variable (bits : BitVec Format.binary64.numBits)

theorem toNat_unpackMantissa : (unpackMantissa bits).toNat = bits.toNat % 2 ^ 52 := by
  simp [unpackMantissa]

theorem toNat_unpackExponent : (unpackExponent bits).toNat = bits.toNat / 2 ^ 52 % 2 ^ 11 := by
  simp [unpackExponent, Nat.shiftRight_eq_div_pow]

theorem isMinus_unpackSign :
    isMinus (Sign.ofBitVec (unpackSign bits)) = decide (2 ^ 63 ≤ bits.toNat) := by
  have hBit : (unpackSign bits).toNat = bits.toNat / 2 ^ 63 % 2 := by
    simp [unpackSign, Nat.shiftRight_eq_div_pow]
  have hBelow : bits.toNat < 2 ^ 64 := bits.isLt
  by_cases hMinus : 2 ^ 63 ≤ bits.toNat
  · have hOne : unpackSign bits = 1#1 := BitVec.eq_of_toNat_eq (by rw [hBit]; simp; omega)
    rw [hOne, decide_eq_true hMinus]
    rfl
  · have hZero : unpackSign bits = 0#1 := BitVec.eq_of_toNat_eq (by rw [hBit]; simp; omega)
    rw [hZero, decide_eq_false hMinus]
    rfl

theorem toNat_one_append {width : Nat} (v : BitVec width) :
    (1#1 ++ v).toNat = 2 ^ width + v.toNat := by
  rw [BitVec.toNat_append, ← Nat.shiftLeft_add_eq_or_of_lt v.isLt]
  simp [Nat.shiftLeft_eq]

end

/-- What is read off the bits is what arithmetic unpacks. -/
theorem ofFloat_eq (x : Float) : ofFloat x = ofUnpacked x.toModel.unpack := by
  let bits : BitVec Format.binary64.numBits := x.toBits.toBitVec
  have hFraction : x.toBits.toNat % Nat.pow 2 52 = (unpackMantissa bits).toNat :=
    (toNat_unpackMantissa bits).symm
  have hField : x.toBits.toNat / Nat.pow 2 52 % Nat.pow 2 11 = (unpackExponent bits).toNat :=
    (toNat_unpackExponent bits).symm
  have hSign : decide (Nat.pow 2 63 ≤ x.toBits.toNat) =
      isMinus (Sign.ofBitVec (unpackSign bits)) :=
    (isMinus_unpackSign bits).symm
  have hUnpack : x.toModel.unpack = UnpackedFloat.unpack .binary64 bits := rfl
  unfold ofFloat
  dsimp only
  rw [hFraction, hField, hSign, hUnpack]
  unfold UnpackedFloat.unpack
  dsimp only
  have hFractionZero : (unpackMantissa bits).toNat = 0 ↔ unpackMantissa bits = 0#52 :=
    ⟨fun h => BitVec.eq_of_toNat_eq h, fun h => h ▸ rfl⟩
  have hFieldZero : (unpackExponent bits).toNat = 0 ↔ unpackExponent bits = 0#11 :=
    ⟨fun h => BitVec.eq_of_toNat_eq h, fun h => h ▸ rfl⟩
  have hFieldAll : (unpackExponent bits).toNat = 2047 ↔ unpackExponent bits = -1#11 :=
    ⟨fun h => BitVec.eq_of_toNat_eq h, fun h => h ▸ rfl⟩
  simp only [hFractionZero, hFieldZero, hFieldAll]
  by_cases hAll : unpackExponent bits = -1#11
  · rw [if_pos hAll, if_pos hAll]
    by_cases hNone : unpackMantissa bits = 0#52
    · rw [if_pos hNone, if_pos hNone]
      rfl
    · rw [if_neg hNone, if_neg hNone]
      rfl
  rw [if_neg hAll, if_neg hAll]
  by_cases hSmall : unpackExponent bits = 0#11
  · rw [if_pos hSmall, if_pos hSmall, hSmall]
    by_cases hNone : unpackMantissa bits = 0#52
    · rw [dif_pos hNone, hNone]
      rfl
    · rw [dif_neg hNone]
      rfl
  · rw [if_neg hSmall, if_neg hSmall, ofUnpacked, toNat_one_append]
    rfl

/-! What survives being packed. -/

/-- A significand that fills its bits, with an exponent that a double can have. -/
structure Normal (significand : Nat) (exponent : Int) : Prop where
  least : 2 ^ 52 ≤ significand
  below : significand < 2 ^ 53
  lowest : -1074 ≤ exponent
  highest : exponent ≤ 971

theorem Normal.log2 {significand : Nat} {exponent : Int} (h : Normal significand exponent) :
    significand.log2 = 52 := by
  have hPos : significand ≠ 0 := by
    have := h.least
    omega
  have hLeast := (Nat.le_log2 hPos).mpr h.least
  have hBelow := (Nat.log2_lt hPos).mpr h.below
  omega

theorem unpackSign_packComponents (sign : Sign) (exponent : BitVec 11) (mantissa : BitVec 52) :
    Sign.ofBitVec (unpackSign (packComponents .binary64 sign exponent mantissa)) = sign := by
  simp only [unpackSign, packComponents, BitVec.extractLsb]
  rw [BitVec.extractLsb'_append_eq_of_le (by omega), BitVec.extractLsb'_append_eq_of_le (by omega)]
  cases sign <;> rfl

theorem unpack_packComponents {field : BitVec 11} (hNotAll : field ≠ -1#11)
    (hNotNone : field ≠ 0#11) (sign : Sign) (fraction : BitVec 52)
    (hPos : 0 < 2 ^ 52 + fraction.toNat) :
    UnpackedFloat.unpack .binary64 (packComponents .binary64 sign field fraction) =
      .finite sign (2 ^ 52 + fraction.toNat) (field.toNat - 1075) hPos := by
  unfold UnpackedFloat.unpack
  dsimp only
  simp only [unpackExponent_packComponents, unpackMantissa_packComponents,
    unpackSign_packComponents]
  rw [if_neg hNotAll, if_neg hNotNone, UnpackedFloat.finite.injEq]
  exact ⟨rfl, toNat_one_append fraction, rfl⟩

section

variable {significand : Nat} {exponent : Int} (h : Normal significand exponent) (sign : Sign)
  (hPos : 0 < significand)

include h

theorem pack_normal : UnpackedFloat.pack .binary64 (.finite sign significand exponent hPos) =
    packComponents .binary64 sign (BitVec.ofNat 11 (exponent + 1075).toNat)
      (BitVec.ofNat 52 significand) := by
  have hField : (exponent + Format.binary64.exponentBias + (52 : Nat)).toNat =
      (exponent + 1075).toNat := by
    have hBias : (Format.binary64.exponentBias : Int) = 1023 := rfl
    rw [hBias]
    omega
  have hFits : ¬2 ^ 11 ≤ (exponent + 1075).toNat + 1 := by
    have := h.highest
    omega
  unfold UnpackedFloat.pack
  dsimp only
  rw [hField, if_neg hFits, if_pos (by rw [h.log2]; rfl)]

theorem unpack_pack : (Float.Model.pack (.finite sign significand exponent hPos)).unpack =
    .finite sign significand exponent hPos := by
  obtain ⟨hLeast, hBelow, hLowest, hHighest⟩ := id h
  have hField : (BitVec.ofNat 11 (exponent + 1075).toNat).toNat = (exponent + 1075).toNat := by
    rw [BitVec.toNat_ofNat, Nat.mod_eq_of_lt (by omega)]
  have hNotAll : BitVec.ofNat 11 (exponent + 1075).toNat ≠ -1#11 := by
    intro hSame
    have hAll : (exponent + 1075).toNat = 2047 := by rw [← hField, hSame]; rfl
    omega
  have hNotNone : BitVec.ofNat 11 (exponent + 1075).toNat ≠ 0#11 := by
    intro hSame
    have hNone : (exponent + 1075).toNat = 0 := by rw [← hField, hSame]; rfl
    omega
  have hSignificand : 2 ^ 52 + (BitVec.ofNat 52 significand).toNat = significand := by
    rw [BitVec.toNat_ofNat]
    omega
  have hExponent : ((exponent + 1075).toNat : Int) - 1075 = exponent := by omega
  change UnpackedFloat.unpack .binary64 (UnpackedFloat.pack .binary64 _) = _
  rw [pack_normal h, unpack_packComponents hNotAll hNotNone _ _ (by rw [hSignificand]; exact hPos),
    UnpackedFloat.finite.injEq, hField]
  exact ⟨rfl, hSignificand, hExponent⟩

end

end HtmlTemplate.Double
