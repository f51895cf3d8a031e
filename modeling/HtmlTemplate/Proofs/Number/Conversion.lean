import HtmlTemplate.Proofs.Number.Nearest
import HtmlTemplate.Proofs.Number.Unpacking

/-! Integers as doubles. The machine converts an integer by shifting out the bits that do not fit
a significand and rounding by what was lost, which is rounding to the nearest integer that a
double holds. -/
namespace HtmlTemplate.Double

open Float.Model Float.Model.UnpackedFloat Decimal

/-! Shifting. -/

/-- What does not fit: the last bit that is shifted out, and those before it. -/
theorem mod_two_pow_succ (n shift : Nat) :
    n % 2 ^ (shift + 1) = n % 2 ^ shift + 2 ^ shift * (n / 2 ^ shift % 2) := by
  rw [Nat.pow_succ, Nat.mod_mul]

/-- Of the bits that are shifted out the last one is kept, and whether one of the others was
set. -/
theorem shiftRight_succ (n shift : Nat) :
    (⟨n, false, false⟩ : ExtendedMantissa) >>> (shift + 1) =
      ⟨n / 2 ^ (shift + 1), n / 2 ^ shift % 2 != 0, n % 2 ^ shift != 0⟩ := by
  change Nat.repeat ExtendedMantissa.shiftRightOne (shift + 1) _ = _
  induction shift with
  | zero => simp [Nat.repeat, ExtendedMantissa.shiftRightOne, Nat.mod_one]
  | succ shift ih =>
      rw [Nat.repeat, ih, ExtendedMantissa.shiftRightOne, ExtendedMantissa.mk.injEq]
      refine ⟨?_, rfl, ?_⟩
      · rw [Nat.div_div_eq_div_mul, ← Nat.pow_succ]
      · rw [mod_two_pow_succ, Bool.eq_iff_iff]
        simp
        tauto

/-- So the two bits tell to which side to round. -/
theorem roundedMantissa_shift (n shift : Nat) :
    ((⟨n, false, false⟩ : ExtendedMantissa) >>> shift).roundedMantissa =
      roundHalfEven n (2 ^ shift) := by
  cases shift with
  | zero =>
      rw [Nat.pow_zero, roundHalfEven_of_dvd Nat.one_pos (Nat.one_dvd n), Nat.div_one]
      rfl
  | succ shift =>
      have hParts := mod_two_pow_succ n shift
      have hBelow := Nat.mod_lt n (Nat.two_pow_pos shift)
      have hUnit := Nat.pow_succ 2 shift
      have hOdd (n : Nat) : n + n % 2 = if n % 2 = 0 then n else n + 1 := by
        split <;> omega
      rw [shiftRight_succ]
      unfold roundHalfEven ExtendedMantissa.roundedMantissa
      dsimp only
      generalize n % 2 ^ shift = others at *
      rcases Nat.mod_two_eq_zero_or_one (n / 2 ^ shift) with hBit | hBit
      · rw [hBit, Nat.mul_zero, Nat.add_zero] at hParts
        rw [hParts, if_pos (by omega), hBit]
        cases others <;> rfl
      · rw [hBit, Nat.mul_one] at hParts
        rw [hParts, if_neg (by omega), hBit]
        cases others with
        | zero =>
            rw [if_neg (by omega)]
            exact hOdd _
        | succ others =>
            rw [if_pos (by omega)]
            rfl

/-! Rounding. -/

/-- The exponent that goes with a significand of 53 bits, if no lower one is needed. -/
theorem targetExponent_eq (significand : Nat) (exponent : Int) :
    Format.binary64.targetExponent (totalExponent significand exponent) =
      max (significand.log2 + exponent - 52) (-1074) := by
  have hBits : (Format.binary64.mantissaBits : Int) = 53 := rfl
  have hLeast : Format.binary64.minExponent = -1074 := rfl
  rw [Format.targetExponent, totalExponent, hBits, hLeast]
  congr 1
  omega

/-- What has 53 bits or more is shifted until they are 53. -/
theorem shiftToTargetExponent_eq {significand : Nat} {exponent : Int}
    (hFull : 52 ≤ significand.log2) (hLow : -1074 ≤ exponent) :
    shiftToTargetExponent .binary64 significand exponent .exact =
      ((⟨significand, false, false⟩ : ExtendedMantissa) >>> (significand.log2 - 52),
        exponent + (significand.log2 - 52 : Nat)) := by
  have hShift : (max (significand.log2 + exponent - 52) (-1074) - exponent).toNat =
      significand.log2 - 52 := by omega
  unfold shiftToTargetExponent shiftToExponent
  dsimp only
  rw [targetExponent_eq, hShift]
  rfl

theorem mantissa_shift (n shift : Nat) :
    ((⟨n, false, false⟩ : ExtendedMantissa) >>> shift).mantissa = n / 2 ^ shift := by
  cases shift with
  | zero => rw [Nat.pow_zero, Nat.div_one]; rfl
  | succ shift => rw [shiftRight_succ]

theorem le_roundHalfEven_spacing {n : Nat} (h : 52 ≤ n.log2) :
    2 ^ 52 ≤ roundHalfEven n (spacing n) := by
  have hZero : n ≠ 0 := by
    rintro rfl
    exact absurd h (by decide)
  have hLeast : 2 ^ 52 ≤ n / spacing n := by
    rw [Nat.le_div_iff_mul_le (spacing_pos n), spacing, ← Nat.pow_add]
    exact (Nat.pow_le_pow_right (by decide) (by omega)).trans (Nat.log2_self_le hZero)
  rcases roundHalfEven_cases n (spacing n) with ⟨hDown, -⟩ | ⟨hUp, -⟩ <;> omega

/-- What is rounded to 54 bits is shifted once more. -/
theorem shift_rounded {rounded : Nat} (hLeast : 2 ^ 52 ≤ rounded) (hMost : rounded ≤ 2 ^ 53) :
    2 ^ 52 ≤ rounded / 2 ^ (rounded.log2 - 52) ∧ rounded / 2 ^ (rounded.log2 - 52) < 2 ^ 53 ∧
      rounded / 2 ^ (rounded.log2 - 52) * 2 ^ (rounded.log2 - 52) = rounded := by
  rcases hMost.lt_or_eq with hBelow | rfl
  · have hLog : rounded.log2 = 52 := (Nat.log2_eq_iff (by omega)).mpr ⟨hLeast, hBelow⟩
    rw [hLog, Nat.sub_self, Nat.pow_zero, Nat.div_one, Nat.mul_one]
    exact ⟨hLeast, hBelow, rfl⟩
  · rw [Nat.log2_two_pow]
    decide

theorem roundWithAccuracy_eq (sign : Sign) {n : Nat} {exponent : Int} (hFull : 52 ≤ n.log2)
    (hLow : -1074 ≤ exponent) :
    ∃ (significand shift : Nat) (hPos : 0 < significand),
      2 ^ 52 ≤ significand ∧ significand < 2 ^ 53 ∧ significand * 2 ^ shift = nearest n ∧
        roundWithAccuracy .binary64 sign n exponent .exact =
          .finite sign significand (exponent + shift) hPos := by
  have hLeast := le_roundHalfEven_spacing hFull
  have hMost := roundHalfEven_spacing_le n
  have hNearest : roundHalfEven n (spacing n) * 2 ^ (n.log2 - 52) = nearest n := rfl
  have hRounded : _ = roundHalfEven n (spacing n) := roundedMantissa_shift n (n.log2 - 52)
  generalize roundHalfEven n (spacing n) = rounded at *
  obtain ⟨hLeast', hBelow, hValue⟩ := shift_rounded hLeast hMost
  have hFull' : 52 ≤ rounded.log2 := (Nat.le_log2 (by omega)).mpr hLeast
  have hPos : 0 < rounded / 2 ^ (rounded.log2 - 52) := by omega
  refine ⟨rounded / 2 ^ (rounded.log2 - 52), (rounded.log2 - 52) + (n.log2 - 52), hPos, hLeast',
    hBelow, ?_, ?_⟩
  · rw [Nat.pow_add, ← Nat.mul_assoc, hValue, hNearest]
  · -- the first shift rounds, the second one makes room for what rounding may have carried
    unfold roundWithAccuracy
    rw [shiftToTargetExponent_eq hFull hLow]
    dsimp only
    rw [hRounded, shiftToTargetExponent_eq hFull' (by omega)]
    dsimp only
    rw [mantissa_shift, dif_neg hPos.ne', UnpackedFloat.finite.injEq]
    exact ⟨rfl, rfl, by omega⟩

/-! Doubles that stand for integers. -/

/-- The value of a significand and an exponent is an integer. -/
def Amounts (significand : Nat) (exponent : Int) (n : Nat) : Prop :=
  significand * 2 ^ exponent.toNat = n * 2 ^ (-exponent).toNat

theorem amounts_sub {significand n up down : Nat} (h : significand * 2 ^ up = n * 2 ^ down) :
    Amounts significand (up - down) n := by
  unfold Amounts
  rcases Nat.le_total down up with hUp | hDown
  · obtain ⟨rest, rfl⟩ := Nat.exists_eq_add_of_le' hUp
    have hRest : ((rest + down : Nat) - down : Int).toNat = rest := by omega
    have hNone : (-((rest + down : Nat) - down : Int)).toNat = 0 := by omega
    rw [hRest, hNone, Nat.pow_zero, Nat.mul_one]
    rw [Nat.pow_add, ← Nat.mul_assoc] at h
    exact Nat.eq_of_mul_eq_mul_right (Nat.two_pow_pos down) h
  · obtain ⟨rest, rfl⟩ := Nat.exists_eq_add_of_le' hDown
    have hRest : (-(up - (rest + up : Nat) : Int)).toNat = rest := by omega
    have hNone : (up - (rest + up : Nat) : Int).toNat = 0 := by omega
    rw [hRest, hNone, Nat.pow_zero, Nat.mul_one]
    rw [Nat.pow_add, ← Nat.mul_assoc] at h
    exact Nat.eq_of_mul_eq_mul_right (Nat.two_pow_pos up) h

/-- Nothing of it is lost in front of the point. -/
theorem shift_of_amounts {significand n : Nat} {exponent : Int}
    (h : Amounts significand exponent n) : shift significand exponent = (n, false, false) := by
  unfold Amounts at h
  unfold shift
  by_cases hWhole : 0 ≤ exponent
  · have hNone : (-exponent).toNat = 0 := by omega
    rw [hNone, Nat.pow_zero, Nat.mul_one] at h
    rw [if_pos hWhole, ← h]
    rfl
  · have hNone : exponent.toNat = 0 := by omega
    rw [hNone, Nat.pow_zero, Nat.mul_one] at h
    have hUnit : 0 < Nat.pow 2 (-exponent).toNat := Nat.two_pow_pos _
    have hParts : significand = n * Nat.pow 2 (-exponent).toNat := h
    rw [if_neg hWhole, hParts]
    dsimp only
    rw [Nat.mul_mod_left, Nat.mul_div_cancel n hUnit, Nat.mul_zero, decide_eq_false hUnit.not_ge]
    rfl

/-- A double that stands for an integer, its bits in the form that all but the smallest have. -/
def Stands (x : Float) (sign : Sign) (n : Nat) : Prop :=
  ∃ (significand : Nat) (exponent : Int) (hPos : 0 < significand),
    Normal significand exponent ∧ Amounts significand exponent n ∧
      x.toModel.unpack = .finite sign significand exponent hPos

section

variable {x : Float} {sign : Sign} {n : Nat}

theorem Stands.neg (h : Stands x sign n) : Stands x.neg (-sign) n := by
  obtain ⟨significand, exponent, hPos, hNormal, hAmounts, hUnpack⟩ := h
  refine ⟨significand, exponent, hPos, hNormal, hAmounts, ?_⟩
  have hNeg : x.neg.toModel.unpack = (Float.Model.pack x.toModel.unpack.neg).unpack := rfl
  rw [hNeg, hUnpack]
  exact unpack_pack hNormal (-sign) hPos

theorem Stands.toInt? (h : Stands x sign n) : Double.toInt? x = some (sign.apply n) := by
  obtain ⟨significand, exponent, hPos, -, hAmounts, hUnpack⟩ := h
  unfold Double.toInt?
  rw [ofFloat_eq, hUnpack, ofUnpacked]
  dsimp only
  rw [shift_of_amounts hAmounts]
  cases sign <;> rfl

/-- What is rounded from an integer stands for the nearest. -/
theorem stands_of_round (down : Nat) (hZero : n ≠ 0) (hFits : n.log2 ≤ 1022)
    (hFull : 52 ≤ n.log2 + down) (hDown : down ≤ 1074)
    (hx : x.toModel = .pack (roundWithAccuracy .binary64 sign (n * 2 ^ down) (-down) .exact)) :
    Stands x sign (nearest n) := by
  have hLog := log2_mul_two_pow hZero down
  obtain ⟨significand, up, hPos, hLeast, hBelow, hValue, hRound⟩ :=
    roundWithAccuracy_eq sign (hLog.symm ▸ hFull) (by omega : -1074 ≤ -(down : Int))
  rw [nearest_mul_two_pow hZero hFull] at hValue
  have hUp : 52 + up < n.log2 + 2 + down := by
    refine (Nat.pow_lt_pow_iff_right (by decide : 1 < 2)).mp ?_
    calc 2 ^ (52 + up) = 2 ^ 52 * 2 ^ up := Nat.pow_add ..
      _ ≤ significand * 2 ^ up := Nat.mul_le_mul_right _ hLeast
      _ = nearest n * 2 ^ down := hValue
      _ ≤ 2 * n * 2 ^ down := Nat.mul_le_mul_right _ (nearest_le hZero)
      _ < 2 * 2 ^ (n.log2 + 1) * 2 ^ down :=
        Nat.mul_lt_mul_of_pos_right (Nat.mul_lt_mul_of_pos_left Nat.lt_log2_self Nat.two_pos)
          (Nat.two_pow_pos down)
      _ = 2 ^ (n.log2 + 2 + down) := by rw [← Nat.pow_succ', ← Nat.pow_add]
  have hNormal : Normal significand (-(down : Int) + up) :=
    ⟨hLeast, hBelow, by omega, by omega⟩
  refine ⟨significand, -down + up, hPos, hNormal, ?_, ?_⟩
  · rw [Int.add_comm, ← Int.sub_eq_add_neg]
    exact amounts_sub hValue
  · rw [hx, hRound]
    exact unpack_pack hNormal sign hPos

end

/-! The conversion. -/

/-- What has at most 53 bits is held as it is. -/
theorem nearest_of_lt {n : Nat} (h : n < 2 ^ 53) : nearest n = n :=
  nearest_eq_self_iff.mpr (spacing_dvd_iff.mpr ⟨n, 0, h, (Nat.mul_one n).symm⟩)

/-- A word of the machine is converted by the model's own rounding. -/
theorem stands_toFloat {n : Nat} (hZero : n ≠ 0) (h : n < 2 ^ 53) :
    Stands n.toUInt64.toFloat .positive n := by
  have hLog : n.log2 < 53 := (Nat.log2_lt hZero).mpr h
  have hWord : n.toUInt64.toNat = n := by
    rw [UInt64.toNat_ofNat']
    omega
  have hDown : (0 - max ((n.log2 : Int) + 0 - 52) (-1074)).toNat = 52 - n.log2 := by omega
  have hStands : Stands n.toUInt64.toFloat .positive (nearest n) := by
    refine stands_of_round (52 - n.log2) hZero (by omega) (by omega) (by omega) ?_
    have hModel : n.toUInt64.toFloat.toModel =
        .pack (UnpackedFloat.normalize .binary64 (n.toUInt64.toNat : Int) 0 .positive) := rfl
    have hPositive : compare (n : Int) 0 = .gt := by
      rw [Int.compare_eq_gt]
      omega
    rw [hModel, hWord, UnpackedFloat.normalize, hPositive]
    dsimp only
    unfold UnpackedFloat.round decreaseExponent
    dsimp only
    rw [Int.toNat_natCast, targetExponent_eq, hDown, Nat.shiftLeft_eq, Int.zero_sub]
  rwa [nearest_of_lt h] at hStands

theorem unpack_one : (Float.ofBits 0x3FF0000000000000).toModel.unpack =
    .finite .positive (2 ^ 52) (-52) (by decide) :=
  rfl

/-- Where the significand is that of a number below `2 ^ 53`, the point is within it. -/
theorem Amounts.of_lt {significand n : Nat} {exponent : Int} (h : Amounts significand exponent n)
    (hNormal : Normal significand exponent) (hZero : n ≠ 0) (hBelow : n < 2 ^ 53) :
    ∃ down : Nat, down ≤ 52 ∧ exponent = -down ∧ significand = n * 2 ^ down := by
  have hLeast := hNormal.least
  have hExponent : exponent ≤ 0 := by
    by_contra hAbove
    have hNone : (-exponent).toNat = 0 := by omega
    have hTwo : 2 ^ 1 ≤ 2 ^ exponent.toNat := Nat.pow_le_pow_right (by decide) (by omega)
    have hMore := Nat.mul_le_mul hLeast hTwo
    rw [h, hNone] at hMore
    omega
  have hNone : exponent.toNat = 0 := by omega
  have hSignificand : significand = n * 2 ^ (-exponent).toNat := by
    rw [← h, hNone, Nat.pow_zero, Nat.mul_one]
  refine ⟨(-exponent).toNat, ?_, by omega, hSignificand⟩
  have hPower : 2 ^ (-exponent).toNat < 2 ^ 53 := by
    calc 2 ^ (-exponent).toNat ≤ n * 2 ^ (-exponent).toNat :=
          Nat.le_mul_of_pos_left _ (Nat.pos_of_ne_zero hZero)
      _ = significand := hSignificand.symm
      _ < 2 ^ 53 := hNormal.below
  have := (Nat.pow_lt_pow_iff_right (by decide)).mp hPower
  omega

theorem stands_ofNat {n : Nat} (hZero : n ≠ 0) (hFits : n.log2 ≤ 1022) :
    Stands (Float.ofNat n) .positive (nearest n) := by
  by_cases hBelow : n < 2 ^ 53
  · -- as a word, then times one
    obtain ⟨significand, exponent, hPos, hNormal, hAmounts, hUnpack⟩ := stands_toFloat hZero hBelow
    obtain ⟨down, hDown, rfl, rfl⟩ := hAmounts.of_lt hNormal hZero hBelow
    refine stands_of_round (down + 52) hZero hFits (by omega) (by omega) ?_
    have hProduct : Float.ofNat n = n.toUInt64.toFloat * Float.ofBits 0x3FF0000000000000 :=
      dif_pos ⟨hBelow, by decide⟩
    have hModel (x y : Float) : (x * y).toModel =
        .pack (UnpackedFloat.mul .binary64 x.toModel.unpack y.toModel.unpack) := rfl
    have hExponent : -(down : Int) + -52 = -(down + 52 : Nat) := by omega
    rw [hProduct, hModel, hUnpack, unpack_one, UnpackedFloat.mul, Nat.mul_assoc, ← Nat.pow_add,
      hExponent]
    rfl
  · -- with 53 bits more, then times a power of ten
    refine stands_of_round 53 hZero hFits (by omega) (by omega) ?_
    have hModel : Float.ofNat n = Float.ofModel (Float.Model.ofScientific n 0) :=
      dif_neg fun hSmall => hBelow hSmall.1
    have hReach : (2 : Int) ^ Format.binary64.exponentBits = 2048 := rfl
    rw [hModel, Float.Model.ofScientific, UnpackedFloat.ofScientific, dif_neg hZero, hReach,
      if_neg (by decide), if_neg (by omega), if_pos (by decide), UnpackedFloat.mul,
      Int.toNat_zero, Nat.pow_zero, Nat.mul_one, Nat.shiftLeft_eq]
    rfl

/-- An integer becomes the nearest one that a double holds. -/
theorem toInt?_ofInt {n : Int} (h : n.natAbs.log2 ≤ 1022) :
    Double.toInt? (Float.ofInt n) = some (nearestInt n) := by
  cases n with
  | ofNat n =>
      by_cases hZero : n = 0
      · subst hZero
        decide +kernel
      · have hStands : Stands (Float.ofInt (.ofNat n)) .positive (nearest n) := stands_ofNat hZero h
        have hSign : (Int.ofNat n).sign = 1 :=
          Int.sign_eq_one_of_pos (Int.natCast_pos.mpr (Nat.pos_of_ne_zero hZero))
        rw [hStands.toInt?, nearestInt, hSign, Int.one_mul]
        rfl
  | negSucc n =>
      have hStands : Stands (Float.ofInt (.negSucc n)) .negative (nearest n.succ) :=
        (stands_ofNat (Nat.succ_ne_zero n) h).neg
      rw [hStands.toInt?, nearestInt, Int.sign_negSucc, Int.neg_one_mul]
      rfl

/-- No integer that a double holds is nearer than the one that comes of the conversion. -/
theorem ofInt_nearest {n : Int} (h : n.natAbs.log2 ≤ 1022) :
    ∃ held, Double.toInt? (Float.ofInt n) = some held ∧ Holds held ∧
      ∀ other, Holds other → (n - held).natAbs ≤ (n - other).natAbs :=
  ⟨nearestInt n, toInt?_ofInt h, holds_nearestInt n, fun _ => natAbs_sub_nearestInt_le n⟩

/-- An integer of 64 bits is displayed with the digits of the nearest one that a double holds. -/
theorem text_ofInt {n : Int} (h : n.natAbs < natBound) :
    text (Float.ofInt n) = toString (nearestInt n) := by
  have hBits : n.natAbs.log2 ≤ 1022 := by
    by_cases hZero : n.natAbs = 0
    · rw [hZero]
      decide
    · have hLog : n.natAbs.log2 < 64 := (Nat.log2_lt hZero).mpr h
      omega
  have hDigits : (nearestInt n).natAbs < Nat.pow 10 21 := by
    by_cases hZero : n = 0
    · rw [hZero]
      decide
    · have hNear := nearest_le (Int.natAbs_ne_zero.mpr hZero)
      have hBound : 2 * natBound < Nat.pow 10 21 := by decide
      rw [natAbs_nearestInt]
      omega
  have hValue := toInt?_ofInt hBits
  unfold text
  cases hParts : ofFloat (Float.ofInt n) with
  | finite negative significand exponent =>
      dsimp only
      rw [hValue]
      exact if_pos hDigits
  | _ =>
      rw [Double.toInt?, hParts] at hValue
      cases hValue

end HtmlTemplate.Double
