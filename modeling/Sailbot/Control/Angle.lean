import Sailbot.Control.LineCost
import Sailbot.Lib.Plane

/-!
# Angles in exact arithmetic

`norm_angle` (`control/util.cc`) over the real numbers: it changes an angle by whole turns, and
the result is at most half a turn. The two half turns are not told apart: an odd multiple of pi
comes out as pi or as -pi.

* `normAngle_modEq`, `abs_normAngle_le` — that is all that there is to know.
* `normAngle_eq`                        — inside of a half turn, the result is determined.
* `normAngle_pos_iff`                   — when the result is positive, half turns included.
-/

namespace Sailbot.Control

open Lib Real
open Lib.Arith (lit)

namespace Util

variable {a b : ℝ}

/-- `norm_angle` over the real numbers, where the conversion to an `int` rounds to zero. -/
theorem normAngle_eq_ite (a : ℝ) :
    normAngle a =
      if π < a then a - ⌊a / (2 * π) + 1 / 2⌋ * (2 * π)
      else if a < -π then a - ⌈a / (2 * π) - 1 / 2⌉ * (2 * π)
      else a := by
  have hTau : lit 2 * Arith.mPi = 2 * π := by
    show ((2 : ℚ) : ℝ) * π = 2 * π
    norm_num
  have hHalf : (lit (1 / 2) : ℝ) = 1 / 2 := by
    rw [Arith.lit_real]
    norm_num
  have hPi : (Arith.mPi : ℝ) = π := rfl
  have hPos := pi_pos
  unfold normAngle
  rw [hTau, hHalf, hPi]
  simp only [Arith.lt_real]
  split
  case isTrue h =>
    have hSign : 0 ≤ a / (2 * π) + 1 / 2 := by
      have : 0 < a / (2 * π) := div_pos (by linarith) (by positivity)
      linarith
    show a - (if 0 ≤ a / (2 * π) + 1 / 2 then _ else _) * (2 * π) = _
    rw [if_pos hSign]
  case isFalse =>
    split
    case isTrue h =>
      have hSign : ¬ 0 ≤ a / (2 * π) - 1 / 2 := by
        have : a / (2 * π) < 0 := div_neg_of_neg_of_pos (by linarith) (by positivity)
        linarith
      show a - (if 0 ≤ a / (2 * π) - 1 / 2 then _ else _) * (2 * π) = _
      rw [if_neg hSign]
    case isFalse => rfl

/-- Whole turns are taken off. -/
theorem normAngle_modEq (a : ℝ) : normAngle a ≡ a [PMOD 2 * π] := by
  rw [AddCommGroup.modEq_iff_eq_add_zsmul, normAngle_eq_ite]
  split
  · exact ⟨⌊a / (2 * π) + 1 / 2⌋, by rw [zsmul_eq_mul]; ring⟩
  · split
    · exact ⟨⌈a / (2 * π) - 1 / 2⌉, by rw [zsmul_eq_mul]; ring⟩
    · exact ⟨0, by simp⟩

theorem abs_normAngle_le (a : ℝ) : |normAngle a| ≤ π := by
  have hTau : 0 < 2 * π := by positivity
  have hTurns : a / (2 * π) * (2 * π) = a := div_mul_cancel₀ a hTau.ne'
  rw [normAngle_eq_ite, abs_le]
  split
  case isTrue =>
    have hLow := mul_le_mul_of_nonneg_right (Int.floor_le (a / (2 * π) + 1 / 2)) hTau.le
    have hHigh := mul_le_mul_of_nonneg_right (Int.lt_floor_add_one (a / (2 * π) + 1 / 2)).le hTau.le
    constructor <;> linarith
  case isFalse hLe =>
    split
    case isTrue =>
      have hLow := mul_le_mul_of_nonneg_right (Int.le_ceil (a / (2 * π) - 1 / 2)) hTau.le
      have hHigh :=
        mul_le_mul_of_nonneg_right (Int.ceil_lt_add_one (a / (2 * π) - 1 / 2)).le hTau.le
      constructor <;> linarith
    case isFalse hGe => exact ⟨not_lt.mp hGe, not_lt.mp hLe⟩

/-- Angles that differ by whole turns, and by less than one, are the same. -/
theorem eq_of_modEq (h : a ≡ b [PMOD 2 * π]) (hLt : |a - b| < 2 * π) : a = b := by
  obtain ⟨z, hz⟩ := AddCommGroup.modEq_iff_eq_add_zsmul.mp h
  rw [zsmul_eq_mul] at hz
  have hTau : 0 < 2 * π := by positivity
  have hSize : |(z : ℝ)| * (2 * π) < 1 * (2 * π) := by
    have hDiff : |a - b| = |(z : ℝ)| * (2 * π) := by
      rw [show a - b = -(z * (2 * π)) by linarith, abs_neg, abs_mul, abs_of_pos hTau]
    linarith
  have hZero : z = 0 := by
    have : |(z : ℝ)| < 1 := lt_of_mul_lt_mul_right hSize hTau.le
    rw [← Int.cast_abs] at this
    exact Int.abs_lt_one_iff.mp (by exact_mod_cast this)
  rw [hz, hZero]
  simp

/-- An angle of less than half a turn is what all the angles are normalised to that differ from
it by whole turns. -/
theorem normAngle_eq (h : b ≡ a [PMOD 2 * π]) (hb : |b| < π) : normAngle a = b := by
  refine eq_of_modEq ((normAngle_modEq a).trans h.symm) ?_
  have := abs_sub (normAngle a) b
  linarith [abs_normAngle_le a]

theorem cos_normAngle (a : ℝ) : cos (normAngle a) = cos a := by
  obtain ⟨z, hz⟩ := AddCommGroup.modEq_iff_eq_add_zsmul.mp (normAngle_modEq a)
  calc cos (normAngle a) = cos (normAngle a + z * (2 * π)) := (cos_add_int_mul_two_pi _ z).symm
    _ = cos a := by rw [← zsmul_eq_mul, ← hz]

theorem sin_normAngle (a : ℝ) : sin (normAngle a) = sin a := by
  obtain ⟨z, hz⟩ := AddCommGroup.modEq_iff_eq_add_zsmul.mp (normAngle_modEq a)
  calc sin (normAngle a) = sin (normAngle a + z * (2 * π)) := (sin_add_int_mul_two_pi _ z).symm
    _ = sin a := by rw [← zsmul_eq_mul, ← hz]

/-- Above half a turn, the result is less than half a turn. -/
theorem normAngle_lt_pi (h : π < a) : normAngle a < π := by
  have hTau : 0 < 2 * π := by positivity
  have hTurns : a / (2 * π) * (2 * π) = a := div_mul_cancel₀ a hTau.ne'
  have hFloor := mul_lt_mul_of_pos_right (Int.lt_floor_add_one (a / (2 * π) + 1 / 2)) hTau
  rw [normAngle_eq_ite, if_pos h]
  linarith

/-- Below minus half a turn, the result is more than that. -/
theorem neg_pi_lt_normAngle (h : a < -π) : -π < normAngle a := by
  have hPos := pi_pos
  have hTau : 0 < 2 * π := by positivity
  have hTurns : a / (2 * π) * (2 * π) = a := div_mul_cancel₀ a hTau.ne'
  have hCeil := mul_lt_mul_of_pos_right (Int.ceil_lt_add_one (a / (2 * π) - 1 / 2)) hTau
  rw [normAngle_eq_ite, if_neg (by linarith), if_pos h]
  linarith

theorem normAngle_of_abs_le (h : |a| ≤ π) : normAngle a = a := by
  obtain ⟨hLow, hHigh⟩ := abs_le.mp h
  rw [normAngle_eq_ite, if_neg (not_lt.mpr hHigh), if_neg (not_lt.mpr hLow)]

/-- The result is positive on one side. Half a turn from either side is an odd multiple of pi, and
then it is positive for pi itself and for all the negative ones but minus pi. -/
theorem normAngle_pos_iff (a : ℝ) :
    0 < normAngle a ↔ 0 < sin a ∨ sin a = 0 ∧ cos a < 0 ∧ (a = π ∨ a < -π) := by
  have hPos := pi_pos
  obtain ⟨hLow, hHigh⟩ := abs_le.mp (abs_normAngle_le a)
  rw [← sin_normAngle a, ← cos_normAngle a]
  constructor
  · intro hAngle
    rcases hHigh.lt_or_eq with hLt | hHalf
    · exact .inl (sin_pos_of_pos_of_lt_pi hAngle hLt)
    · refine .inr ⟨by rw [hHalf, sin_pi], by rw [hHalf, cos_pi]; norm_num, ?_⟩
      rcases lt_or_ge a (-π) with hBelow | hAbove
      · exact .inr hBelow
      · have hLe : a ≤ π := not_lt.mp fun hOver => (normAngle_lt_pi hOver).ne hHalf
        rw [normAngle_of_abs_le (abs_le.mpr ⟨hAbove, hLe⟩)] at hHalf
        exact .inl hHalf
  · rintro (hSin | ⟨hSin, hCos, hHalf⟩)
    · by_contra hNot
      exact absurd hSin (not_lt.mpr (sin_nonpos_of_nonpos_of_neg_pi_le (not_lt.mp hNot) hLow))
    · have hAbove : -π < normAngle a := by
        rcases hHalf with rfl | hBelow
        · rw [normAngle_of_abs_le (abs_of_pos hPos).le]
          linarith
        · exact neg_pi_lt_normAngle hBelow
      rcases lt_trichotomy (normAngle a) 0 with hNeg | hZero | hAngle
      · exact absurd hSin (sin_neg_of_neg_of_neg_pi_lt hNeg hAbove).ne
      · rw [hZero, cos_zero] at hCos
        linarith
      · exact hAngle

-- ---------------------------------------------------------------------------
-- Limits
-- ---------------------------------------------------------------------------

theorem clip_real (a lo hi : ℝ) : clip a lo hi = max (min a hi) lo := by
  rw [clip, Arith.min_real, Arith.max_real]

/-- What is clipped is between the limits. -/
theorem clip_mem {lo hi : ℝ} (h : lo ≤ hi) (a : ℝ) : lo ≤ clip a lo hi ∧ clip a lo hi ≤ hi := by
  rw [clip_real]
  exact ⟨le_max_right _ _, max_le (min_le_right _ _) h⟩

end Util

end Sailbot.Control
