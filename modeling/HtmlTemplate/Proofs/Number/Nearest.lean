import HtmlTemplate.Number.Decimal
import Mathlib.Algebra.Order.Group.Nat
import Mathlib.Data.Nat.Dist

/-! The integers that doubles hold, and the one nearest to an integer. A significand has 53 bits,
so that beyond `2 ^ 53` the integers that a double holds lie apart, twice as far with every
further bit. -/
namespace HtmlTemplate

namespace Decimal

variable {num den : Nat}

theorem roundHalfEven_cases (num den : Nat) :
    (roundHalfEven num den = num / den ∧ 2 * (num % den) ≤ den) ∨
      (roundHalfEven num den = num / den + 1 ∧ den ≤ 2 * (num % den)) := by
  unfold roundHalfEven
  dsimp only
  split
  · exact .inl ⟨rfl, by omega⟩
  · split
    · exact .inr ⟨rfl, by omega⟩
    · split
      · exact .inl ⟨rfl, by omega⟩
      · exact .inr ⟨rfl, by omega⟩

theorem roundHalfEven_of_dvd (hDen : 0 < den) (h : den ∣ num) :
    roundHalfEven num den = num / den := by
  unfold roundHalfEven
  dsimp only
  rw [Nat.mod_eq_zero_of_dvd h, if_pos hDen]

/-- Only the quotient counts. -/
theorem roundHalfEven_mul_mul {factor : Nat} (hFactor : 0 < factor) (num den : Nat) :
    roundHalfEven (num * factor) (den * factor) = roundHalfEven num den := by
  have hTwice : 2 * (num % den * factor) = 2 * (num % den) * factor := (Nat.mul_assoc ..).symm
  unfold roundHalfEven
  dsimp only
  simp only [Nat.mul_div_mul_right _ _ hFactor, Nat.mul_mod_mul_right, hTwice,
    Nat.mul_lt_mul_right hFactor]

/-- No multiple of the denominator is nearer. -/
theorem dist_roundHalfEven_le (hDen : 0 < den) (n : Nat) :
    Nat.dist num (roundHalfEven num den * den) ≤ Nat.dist num (n * den) := by
  have hParts := Nat.div_add_mod' num den
  have hLost := Nat.mod_lt num hDen
  have hNext : (num / den + 1) * den = num / den * den + den := Nat.succ_mul _ _
  have hSide : n * den ≤ num / den * den ∨ num / den * den + den ≤ n * den := by
    rcases Nat.lt_or_ge (num / den) n with hAbove | hBelow
    · exact .inr (hNext ▸ Nat.mul_le_mul_right den hAbove)
    · exact .inl (Nat.mul_le_mul_right den hBelow)
  unfold Nat.dist
  rcases roundHalfEven_cases num den with ⟨hDown, hHalf⟩ | ⟨hUp, hHalf⟩
  · rw [hDown]
    omega
  · rw [hUp, hNext]
    omega

end Decimal

namespace Double

open Decimal

/-- How far the doubles around a number of at least 53 bits lie apart; they hold every integer
below. -/
def spacing (n : Nat) : Nat :=
  2 ^ (n.log2 - 52)

/-- The nearest integer that a double holds. Of two the one with an even significand is taken. -/
def nearest (n : Nat) : Nat :=
  roundHalfEven n (spacing n) * spacing n

/-- The nearest integer that a double holds. -/
def nearestInt (n : Int) : Int :=
  n.sign * nearest n.natAbs

/-- That a double holds an integer: it has at most 53 bits between the first one that is set and
the last. -/
def Holds (n : Int) : Prop :=
  ∃ significand exponent : Nat, significand < 2 ^ 53 ∧ n.natAbs = significand * 2 ^ exponent

theorem spacing_pos (n : Nat) : 0 < spacing n :=
  Nat.two_pow_pos _

theorem nearest_zero : nearest 0 = 0 :=
  rfl

theorem spacing_le {n : Nat} (h : n ≠ 0) : spacing n ≤ n :=
  (Nat.pow_le_pow_right (by decide) (Nat.sub_le _ _)).trans (Nat.log2_self_le h)

/-- Far from the integer it cannot be. -/
theorem nearest_le {n : Nat} (h : n ≠ 0) : nearest n ≤ 2 * n := by
  have hSpacing := spacing_le h
  have hBelow : n / spacing n * spacing n ≤ n := Nat.div_mul_le_self n _
  have hNext : (n / spacing n + 1) * spacing n = n / spacing n * spacing n + spacing n :=
    Nat.succ_mul _ _
  unfold nearest
  rcases roundHalfEven_cases n (spacing n) with ⟨hDown, -⟩ | ⟨hUp, -⟩
  · rw [hDown]
    omega
  · rw [hUp, hNext]
    omega

/-- Without what the spacing leaves out, 53 bits remain. -/
theorem div_spacing_lt (n : Nat) : n / spacing n < 2 ^ 53 := by
  have hLog : n.log2 + 1 ≤ 53 + (n.log2 - 52) := by omega
  rw [Nat.div_lt_iff_lt_mul (spacing_pos n)]
  calc n < 2 ^ (n.log2 + 1) := Nat.lt_log2_self
    _ ≤ 2 ^ (53 + (n.log2 - 52)) := Nat.pow_le_pow_right (by decide) hLog
    _ = 2 ^ 53 * spacing n := Nat.pow_add ..

/-- Rounding may carry into one bit more. -/
theorem roundHalfEven_spacing_le (n : Nat) : roundHalfEven n (spacing n) ≤ 2 ^ 53 := by
  have hBelow := div_spacing_lt n
  rcases roundHalfEven_cases n (spacing n) with ⟨hDown, -⟩ | ⟨hUp, -⟩ <;> omega

/-- A significand of 53 bits at most leaves the rest to the exponent. -/
theorem spacing_dvd_iff {n : Nat} :
    spacing n ∣ n ↔ ∃ significand exponent, significand < 2 ^ 53 ∧ n = significand * 2 ^ exponent := by
  constructor
  · intro hDivides
    exact ⟨n / spacing n, n.log2 - 52, div_spacing_lt n, (Nat.div_mul_cancel hDivides).symm⟩
  · rintro ⟨significand, exponent, hBelow, rfl⟩
    by_cases hZero : significand * 2 ^ exponent = 0
    · rw [hZero]
      exact Nat.dvd_zero _
    have hBits : significand * 2 ^ exponent < 2 ^ (53 + exponent) := by
      rw [Nat.pow_add]
      exact Nat.mul_lt_mul_of_pos_right hBelow (Nat.two_pow_pos _)
    have hLog := (Nat.log2_lt hZero).mpr hBits
    exact (Nat.pow_dvd_pow 2 (by omega)).mul_left significand

/-- Exactly the multiples of the spacing are not rounded. -/
theorem nearest_eq_self_iff {n : Nat} : nearest n = n ↔ spacing n ∣ n := by
  constructor
  · intro hSame
    exact ⟨roundHalfEven n (spacing n), hSame.symm.trans (Nat.mul_comm _ _)⟩
  · intro hDivides
    rw [nearest, roundHalfEven_of_dvd (spacing_pos n) hDivides, Nat.div_mul_cancel hDivides]

theorem nearestInt_eq_self_iff {n : Int} : nearestInt n = n ↔ Holds n := by
  have hNat : nearestInt n = n ↔ nearest n.natAbs = n.natAbs := by
    by_cases hZero : n = 0
    · rw [hZero]
      decide
    · unfold nearestInt
      conv_lhs => rhs; rw [← Int.sign_mul_natAbs n]
      rw [Int.mul_eq_mul_left_iff (mt Int.sign_eq_zero_iff_zero.mp hZero), Int.ofNat_inj]
  rw [hNat, nearest_eq_self_iff, spacing_dvd_iff, Holds]

instance : DecidablePred Holds :=
  fun _ => decidable_of_iff _ nearestInt_eq_self_iff

/-- Nothing that a double holds is nearer. -/
theorem dist_nearest_le (n : Nat) {other : Nat} (h : Holds other) :
    Nat.dist n (nearest n) ≤ Nat.dist n other := by
  by_cases hZero : n = 0
  · rw [hZero, nearest_zero, Nat.dist_self]
    exact Nat.zero_le _
  have hMultiple {point : Nat} (hPoint : spacing n ∣ point) :
      Nat.dist n (nearest n) ≤ Nat.dist n point :=
    Nat.div_mul_cancel hPoint ▸ dist_roundHalfEven_le (spacing_pos n) _
  by_cases hFewer : other < 2 ^ n.log2
  · -- With fewer bits than `n` it is further away than the least number with as many.
    have hLeast : 2 ^ n.log2 ≤ n := Nat.log2_self_le hZero
    have hNear := hMultiple (Nat.pow_dvd_pow 2 (Nat.sub_le n.log2 52))
    unfold Nat.dist at hNear ⊢
    omega
  · have hOther : other ≠ 0 := by
      have := Nat.two_pow_pos n.log2
      omega
    have hLog : n.log2 ≤ other.log2 := (Nat.le_log2 hOther).mpr (Nat.le_of_not_lt hFewer)
    have hSpacing : spacing n ∣ spacing other := Nat.pow_dvd_pow 2 (Nat.sub_le_sub_right hLog 52)
    exact hMultiple (hSpacing.trans (spacing_dvd_iff.mpr h))

theorem natAbs_nearestInt (n : Int) : (nearestInt n).natAbs = nearest n.natAbs := by
  by_cases hZero : n = 0
  · rw [hZero]
    rfl
  · rw [nearestInt, Int.natAbs_mul, Int.natAbs_sign_of_ne_zero hZero, Nat.one_mul,
      Int.natAbs_natCast]

/-- What is rounded is held. -/
theorem holds_nearestInt (n : Int) : Holds (nearestInt n) := by
  have hSize := natAbs_nearestInt n
  rcases (roundHalfEven_spacing_le n.natAbs).lt_or_eq with hBelow | hCarry
  · exact ⟨_, n.natAbs.log2 - 52, hBelow, hSize⟩
  · refine ⟨1, 53 + (n.natAbs.log2 - 52), by decide, ?_⟩
    rw [hSize, nearest, hCarry, spacing, ← Nat.pow_add, Nat.one_mul]

/-- Nor is anything with another sign. -/
theorem natAbs_sub_nearestInt_le (n : Int) {other : Int} (h : Holds other) :
    (n - nearestInt n).natAbs ≤ (n - other).natAbs := by
  have hOwn : (n - nearestInt n).natAbs = Nat.dist n.natAbs (nearest n.natAbs) := by
    unfold nearestInt Nat.dist
    rcases Int.lt_trichotomy n 0 with hBelow | hZero | hAbove
    · rw [Int.sign_eq_neg_one_of_neg hBelow]
      omega
    · rw [hZero]
      rfl
    · rw [Int.sign_eq_one_of_pos hAbove]
      omega
  have hOther : Nat.dist n.natAbs (nearest n.natAbs) ≤ Nat.dist n.natAbs other.natAbs :=
    dist_nearest_le _ h
  have hNone : Nat.dist n.natAbs (nearest n.natAbs) ≤ Nat.dist n.natAbs 0 :=
    dist_nearest_le _ ⟨0, 0, by decide, rfl⟩
  rw [hOwn]
  unfold Nat.dist at *
  omega

theorem log2_mul_two_pow {n : Nat} (hZero : n ≠ 0) (shift : Nat) :
    (n * 2 ^ shift).log2 = n.log2 + shift := by
  have hPos := Nat.two_pow_pos shift
  rw [Nat.log2_eq_iff (Nat.mul_ne_zero hZero hPos.ne'), Nat.pow_add, Nat.add_right_comm, Nat.pow_add]
  exact ⟨Nat.mul_le_mul_right _ (Nat.log2_self_le hZero),
    Nat.mul_lt_mul_of_pos_right Nat.lt_log2_self hPos⟩

/-- Numbers of 53 bits and more are rounded alike at each scale. -/
theorem nearest_mul_two_pow {n : Nat} (hZero : n ≠ 0) {shift : Nat} (h : 52 ≤ n.log2 + shift) :
    nearest (n * 2 ^ shift) = nearest n * 2 ^ shift := by
  have hScaled : spacing (n * 2 ^ shift) = 2 ^ (n.log2 + shift - 52) := by
    rw [spacing, log2_mul_two_pow hZero]
  by_cases hFull : 52 ≤ n.log2
  · have hSpacing : spacing (n * 2 ^ shift) = spacing n * 2 ^ shift := by
      rw [hScaled, spacing, ← Nat.pow_add]
      congr 1
      omega
    rw [nearest, hSpacing, roundHalfEven_mul_mul (Nat.two_pow_pos shift), ← Nat.mul_assoc, nearest]
  · have hOne : spacing n ∣ n := by
      rw [spacing, Nat.sub_eq_zero_of_le (by omega)]
      exact Nat.one_dvd n
    have hDivides : spacing (n * 2 ^ shift) ∣ n * 2 ^ shift := by
      rw [hScaled]
      exact (Nat.pow_dvd_pow 2 (by omega)).mul_left n
    rw [nearest_eq_self_iff.mpr hDivides, nearest_eq_self_iff.mpr hOne]

end Double

end HtmlTemplate
