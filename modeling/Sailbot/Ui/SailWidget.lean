import Sailbot.Control.Angle
import Mathlib.Analysis.Real.Pi.Bounds

/-!
# Angles on the web page

`normalizeAngle` (`ui/sail_widget.js`) is the text of `norm_angle` (`control/util.cc`) with
`Math.floor` for the conversion to an `int`. The two differ in the branch of the angles below half
a turn: the quotient is negative there, and the page takes off one turn more than the boat.

* `normalizeAngle_eq_add`    — the result is a whole turn too large, and above half a turn.
* `normalisedAlike_iff`      — the page and the boat agree down to minus half a turn; below it
  they agree on the odd multiples of half a turn only.
-/

namespace Sailbot.Ui

open Lib Real
open Lib.Arith (lit)
open Control (Util.normAngle Util.normAngle_eq_ite Util.normAngle_modEq Util.abs_normAngle_le)

/-- `normalizeAngle`. -/
def normalizeAngle {R : Type} [Arith R] (a : R) : R :=
  let tau := lit 2 * Arith.mPi
  if Arith.lt Arith.mPi a then a - Arith.floor (a / tau + lit (1 / 2)) * tau
  else if Arith.lt a (-Arith.mPi) then a - Arith.floor (a / tau - lit (1 / 2)) * tau
  else a

/-- `norm_angle` and `normalizeAngle` give the same angle, which differs from `a` by whole turns
and is at most half a turn. -/
structure NormalisedAlike (a : ℝ) : Prop where
  boat_le     : |Util.normAngle a| ≤ π
  page_le     : |normalizeAngle a| ≤ π
  boat_modEq  : Util.normAngle a ≡ a [PMOD 2 * π]
  page_modEq  : normalizeAngle a ≡ a [PMOD 2 * π]
  page_eq     : normalizeAngle a = Util.normAngle a

variable {a : ℝ}

/-- The three cases of the page's function. -/
theorem normalizeAngle_eq_ite (a : ℝ) :
    normalizeAngle a =
      if π < a then a - ⌊a / (2 * π) + 1 / 2⌋ * (2 * π)
      else if a < -π then a - ⌊a / (2 * π) - 1 / 2⌋ * (2 * π)
      else a := by
  have hTau : lit 2 * Arith.mPi = 2 * π := by
    show ((2 : ℚ) : ℝ) * π = 2 * π
    norm_num
  have hHalf : (lit (1 / 2) : ℝ) = 1 / 2 := by
    rw [Arith.lit_real]
    norm_num
  have hPi : (Arith.mPi : ℝ) = π := rfl
  unfold normalizeAngle
  rw [hTau, hHalf, hPi]
  simp only [Arith.lt_real]
  rfl

/-- Above minus half a turn, the quotient is not negative where it is converted. -/
theorem normalizeAngle_eq (h : -π ≤ a) : normalizeAngle a = Util.normAngle a := by
  rw [normalizeAngle_eq_ite, Util.normAngle_eq_ite, if_neg (not_lt.mpr h), if_neg (not_lt.mpr h)]

/-- The angle is an odd multiple of half a turn where the quotient is an integer. -/
theorem quotient_isInt_iff :
    a / (2 * π) - 1 / 2 ∈ Set.range (Int.cast : ℤ → ℝ) ↔ ∃ k : ℤ, a = (2 * k + 1) * π := by
  have hPi := pi_pos.ne'
  constructor
  · rintro ⟨k, hk⟩
    refine ⟨k, ?_⟩
    field_simp at hk
    linarith
  · rintro ⟨k, rfl⟩
    refine ⟨k, ?_⟩
    field_simp
    ring

/-- Below minus half a turn, the two differ by what is between the two roundings. -/
theorem normalizeAngle_eq_of_lt (hLow : a < -π) :
    normalizeAngle a = Util.normAngle a +
      (⌈a / (2 * π) - 1 / 2⌉ - ⌊a / (2 * π) - 1 / 2⌋) * (2 * π) := by
  have hPos := pi_pos
  have hHigh : ¬ π < a := by linarith
  rw [normalizeAngle_eq_ite, Util.normAngle_eq_ite, if_neg hHigh, if_neg hHigh, if_pos hLow,
    if_pos hLow]
  ring

/-- Below half a turn the odd multiples of it are as they should be. -/
theorem normalizeAngle_odd (hLow : a < -π) (hOdd : ∃ k : ℤ, a = (2 * k + 1) * π) :
    normalizeAngle a = Util.normAngle a := by
  obtain ⟨z, hz⟩ := quotient_isInt_iff.mpr hOdd
  rw [normalizeAngle_eq_of_lt hLow, ← hz, Int.floor_intCast, Int.ceil_intCast]
  ring

/-- `Math.floor` goes away from zero, and one turn too many is taken off. -/
theorem normalizeAngle_eq_add (hLow : a < -π) (hOdd : ¬ ∃ k : ℤ, a = (2 * k + 1) * π) :
    normalizeAngle a = Util.normAngle a + 2 * π := by
  have hCeil : (⌈a / (2 * π) - 1 / 2⌉ : ℝ) = ⌊a / (2 * π) - 1 / 2⌋ + 1 := by
    exact_mod_cast (Int.ceil_eq_floor_add_one_iff_notMem _).mpr (mt quotient_isInt_iff.mp hOdd)
  rw [normalizeAngle_eq_of_lt hLow, hCeil]
  ring

/-- The page and the nodes agree from minus half a turn on, and at the odd multiples of half a turn.
-/
theorem normalizeAngle_eq_iff (a : ℝ) :
    normalizeAngle a = Util.normAngle a ↔ -π ≤ a ∨ ∃ k : ℤ, a = (2 * k + 1) * π := by
  rcases le_or_gt (-π) a with hLe | hLow
  · exact iff_of_true (normalizeAngle_eq hLe) (.inl hLe)
  · by_cases hOdd : ∃ k : ℤ, a = (2 * k + 1) * π
    · exact iff_of_true (normalizeAngle_odd hLow hOdd) (.inr hOdd)
    · have hPi := pi_pos
      refine iff_of_false ?_ (not_or.mpr ⟨not_le.mpr hLow, hOdd⟩)
      rw [normalizeAngle_eq_add hLow hOdd]
      linarith

/-- The boat has the right angle always, so all is well where the page has the same. -/
theorem normalisedAlike_iff (a : ℝ) :
    NormalisedAlike a ↔ -π ≤ a ∨ ∃ k : ℤ, a = (2 * k + 1) * π := by
  rw [← normalizeAngle_eq_iff]
  constructor
  · exact NormalisedAlike.page_eq
  · intro hEq
    exact {
      boat_le := Util.abs_normAngle_le a
      page_le := hEq ▸ Util.abs_normAngle_le a
      boat_modEq := Util.normAngle_modEq a
      page_modEq := hEq ▸ Util.normAngle_modEq a
      page_eq := hEq }

/-- The angle of a test of `norm_angle`, for which the page has more than half a turn. -/
theorem hundred_not_alike : ¬ NormalisedAlike (-100) := by
  have hLow := pi_gt_d2
  have hHigh := pi_lt_d2
  have hOdd : ¬ ∃ k : ℤ, (-100 : ℝ) = (2 * k + 1) * π := by
    rintro ⟨k, hk⟩
    rcases le_or_gt k (-17) with hLe | hGt
    · have : (k : ℝ) ≤ -17 := by exact_mod_cast hLe
      nlinarith
    · have : (-16 : ℝ) ≤ k := by exact_mod_cast (show -16 ≤ k by omega)
      nlinarith
  intro h
  have := h.page_eq
  rw [normalizeAngle_eq_add (by linarith) hOdd] at this
  linarith

end Sailbot.Ui
