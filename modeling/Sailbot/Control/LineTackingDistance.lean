import Sailbot.Control.LineTacking
import Sailbot.Lib.Segment

/-!
# The distance from a leg

`LineTacker::DistanceFromLine` (`control/line_tacking.cc`) in exact arithmetic. The foot of the
perpendicular is found by the slopes of two lines. Where the leg is shorter than `1e-3` in one of
the two directions, it is taken for a line along the other one; but the coordinates are degrees, and
a leg of that size may go in any direction.

* `abs_distanceFromLine`      — the three outcomes, without their sign.
* `distanceFromLine_right_iff` — where the outcome is the distance.
-/

namespace Sailbot.Control.LineTacker

open Lib
open Lib.Arith (lit litf)

variable {start endPt loc : Vec ℝ}

/-- From the middle of the leg. -/
noncomputable def fromMiddle (start endPt loc : Vec ℝ) : Vec ℝ :=
  ⟨loc.x - (start.x + endPt.x) / 2, loc.y - (start.y + endPt.y) / 2⟩

/-- The distance to the line through the ends of the leg. -/
noncomputable def crossTrack (start endPt loc : Vec ℝ) : ℝ :=
  Metric.infDist loc.toComplex line[ℝ, start.toComplex, endPt.toComplex]

/-- The leg is at least `1e-3` long in both directions; or the point is, as seen from the middle of
the leg, half way between the leg and the axis that the leg is taken for. -/
def Measured (start endPt loc : Vec ℝ) : Prop :=
  1 / 1000 ≤ |endPt.y - start.y| ∧ 1 / 1000 ≤ |endPt.x - start.x| ∨
  |endPt.y - start.y| < 1 / 1000 ∧
    (endPt.y - start.y) *
        ((fromMiddle start endPt loc).x ^ 2 - (fromMiddle start endPt loc).y ^ 2) =
      2 * (endPt.x - start.x) * (fromMiddle start endPt loc).x * (fromMiddle start endPt loc).y ∨
  1 / 1000 ≤ |endPt.y - start.y| ∧ |endPt.x - start.x| < 1 / 1000 ∧
    (endPt.x - start.x) *
        ((fromMiddle start endPt loc).y ^ 2 - (fromMiddle start endPt loc).x ^ 2) =
      2 * (endPt.y - start.y) * (fromMiddle start endPt loc).x * (fromMiddle start endPt loc).y

-- ---------------------------------------------------------------------------
-- The outcomes
-- ---------------------------------------------------------------------------

/-- The length of the perpendicular, as it is found from the slopes. -/
theorem perpendicular_eq {dx dy m p k c x y : ℝ} (hx : dx ≠ 0) (hy : dy ≠ 0)
    (hm : m = -dx / dy) (hp : p = loc.y - m * loc.x) (hk : k = -1 / m)
    (hc : c = endPt.y - k * endPt.x) (hFoot : x = (p - c) / (k - m)) (hAbove : y = m * x + p) :
    √((x - loc.x) * (x - loc.x) + (y - loc.y) * (y - loc.y)) =
      |dx * (loc.y - endPt.y) - dy * (loc.x - endPt.x)| / √(dx ^ 2 + dy ^ 2) := by
  have hLength : 0 < dx ^ 2 + dy ^ 2 := by positivity
  have hSlope : k = dy / dx := by
    rw [hk, hm]
    field_simp
  have hSlopes : k - m = (dx ^ 2 + dy ^ 2) / (dx * dy) := by
    rw [hSlope, hm]
    field_simp
    ring
  have hRun : x - loc.x =
      (dx * (loc.y - endPt.y) - dy * (loc.x - endPt.x)) * dy / (dx ^ 2 + dy ^ 2) := by
    rw [hFoot, hSlopes, hp, hc, hSlope, hm]
    field_simp
    ring
  have hRise : y - loc.y = -dx / dy * (x - loc.x) := by
    rw [hAbove, hp, hm]
    ring
  have hSum : (x - loc.x) * (x - loc.x) + (y - loc.y) * (y - loc.y) =
      (|dx * (loc.y - endPt.y) - dy * (loc.x - endPt.x)| / √(dx ^ 2 + dy ^ 2)) ^ 2 := by
    rw [hRise, hRun, div_pow, sq_abs, Real.sq_sqrt hLength.le]
    field_simp
    ring
  rw [hSum, Real.sqrt_sq (by positivity)]

/-- The sign does not change the length. -/
theorem abs_signed (a : ℝ) (P : Prop) [Decidable P] : |a * (if P then 1 else -1)| = |a| := by
  rw [abs_mul]
  split <;> simp

/-- The three outcomes, without their sign. -/
theorem abs_distanceFromLine (start endPt loc : Vec ℝ) :
    |distanceFromLine id start endPt loc| =
      if |endPt.y - start.y| < 1 / 1000 then |(fromMiddle start endPt loc).y|
      else if |endPt.x - start.x| < 1 / 1000 then |(fromMiddle start endPt loc).x|
      else |(endPt - start).cross (loc - start)| / (endPt - start).norm := by
  have hEps : (lit (1 / 1000) : ℝ) = 1 / 1000 := by
    rw [Arith.lit_real]
    norm_num
  have hTwo : (lit 2 : ℝ) = 2 := by
    rw [Arith.lit_real]
    norm_num
  have hOne : (litf 1 : ℝ) = 1 := Rat.cast_one
  have hNeg : (litf (-1) : ℝ) = -1 := by
    show ((-1 : ℚ) : ℝ) = -1
    norm_num
  unfold distanceFromLine
  simp only [id_eq, Arith.lt_real, Arith.abs_real, hEps, hTwo, hOne, hNeg]
  split
  case isTrue => exact abs_sub_comm _ _
  case isFalse hy =>
    split
    case isTrue => exact abs_sub_comm _ _
    case isFalse hx =>
      have hdx : endPt.x - start.x ≠ 0 := by
        intro hZero
        rw [hZero, abs_zero] at hx
        norm_num at hx
      have hdy : endPt.y - start.y ≠ 0 := by
        intro hZero
        rw [hZero, abs_zero] at hy
        norm_num at hy
      have hCross : (endPt - start).cross (loc - start) =
          (endPt.x - start.x) * (loc.y - endPt.y) - (endPt.y - start.y) * (loc.x - endPt.x) := by
        simp only [Vec.cross, Vec.sub_x, Vec.sub_y]
        ring
      rw [abs_signed, hCross, Vec.norm_eq]
      refine (abs_of_nonneg (Real.sqrt_nonneg _)).trans ?_
      exact perpendicular_eq hdx hdy rfl rfl rfl rfl rfl rfl

-- ---------------------------------------------------------------------------
-- The distance
-- ---------------------------------------------------------------------------

theorem crossTrack_eq (hx : start.x ≠ endPt.x) :
    crossTrack start endPt loc =
      |(endPt - start).cross (loc - start)| / (endPt - start).norm :=
  Vec.infDist_line fun h => hx (congrArg Vec.x h)

/-- A component of the way from the middle is the distance where its square is. -/
theorem eq_crossTrack_iff (hx : start.x ≠ endPt.x) (u : ℝ) :
    |u| = crossTrack start endPt loc ↔
      u ^ 2 * ((endPt.x - start.x) ^ 2 + (endPt.y - start.y) ^ 2) =
        ((endPt.x - start.x) * (fromMiddle start endPt loc).y -
          (endPt.y - start.y) * (fromMiddle start endPt loc).x) ^ 2 := by
  have hNorm : 0 < (endPt - start).norm := Vec.norm_pos fun h => hx (congrArg Vec.x h)
  have hCross : (endPt - start).cross (loc - start) =
      (endPt.x - start.x) * (fromMiddle start endPt loc).y -
        (endPt.y - start.y) * (fromMiddle start endPt loc).x := by
    simp only [Vec.cross, Vec.sub_x, Vec.sub_y, fromMiddle]
    ring
  rw [crossTrack_eq hx, eq_div_iff hNorm.ne',
    ← sq_eq_sq₀ (mul_nonneg (abs_nonneg _) hNorm.le) (abs_nonneg _), mul_pow, sq_abs, sq_abs,
    Vec.norm_sq, hCross]
  rfl

/-- For a leg `(p, q)`, a point `(u, v)` is as far from the leg as from the first axis. -/
theorem bisector_iff {p q u v : ℝ} (hq : q ≠ 0) :
    v ^ 2 * (p ^ 2 + q ^ 2) = (p * v - q * u) ^ 2 ↔ q * (u ^ 2 - v ^ 2) = 2 * p * u * v := by
  have hFactor : (p * v - q * u) ^ 2 - v ^ 2 * (p ^ 2 + q ^ 2) =
      q * (q * (u ^ 2 - v ^ 2) - 2 * p * u * v) := by ring
  rw [eq_comm, ← sub_eq_zero, hFactor, mul_eq_zero, or_iff_right hq, sub_eq_zero]

/-- **The distance from a leg.** For every leg that is neither horizontal nor vertical, what is
returned is the distance from the line, up to the sign, if and only if the leg is at least `1e-3`
long in both directions, or the point is half way between the leg and the axis it is taken for. -/
theorem distanceFromLine_right_iff (hx : start.x ≠ endPt.x) (hy : start.y ≠ endPt.y) :
    |distanceFromLine id start endPt loc| = crossTrack start endPt loc ↔
      Measured start endPt loc := by
  have hdx : endPt.x - start.x ≠ 0 := sub_ne_zero.mpr hx.symm
  have hdy : endPt.y - start.y ≠ 0 := sub_ne_zero.mpr hy.symm
  rw [abs_distanceFromLine, Measured]
  rcases lt_or_ge |endPt.y - start.y| (1 / 1000) with hFlat | hRise
  · rw [if_pos hFlat, eq_crossTrack_iff hx]
    have hNot := not_le.mpr hFlat
    simp only [hFlat, hNot, false_and, true_and, false_or, or_false]
    exact bisector_iff hdy
  · rw [if_neg (not_lt.mpr hRise)]
    rcases lt_or_ge |endPt.x - start.x| (1 / 1000) with hSteep | hRun
    · rw [if_pos hSteep, eq_crossTrack_iff hx, add_comm ((endPt.x - start.x) ^ 2),
        sub_sq_comm ((endPt.x - start.x) * _)]
      have hNot := not_le.mpr hSteep
      have hFlat := not_lt.mpr hRise
      simp only [hSteep, hNot, hRise, hFlat, false_and, true_and, and_false, false_or]
      rw [mul_right_comm (2 * (endPt.y - start.y))]
      exact bisector_iff hdx
    · rw [if_neg (not_lt.mpr hRun), crossTrack_eq hx]
      exact iff_of_true rfl (.inl ⟨hRise, hRun⟩)

/-- A leg of one degree. -/
theorem distanceFromLine_right_iff_degree :
    |distanceFromLine id ⟨0, 0⟩ ⟨1, 1⟩ ⟨1, 0⟩| = crossTrack ⟨0, 0⟩ ⟨1, 1⟩ ⟨1, 0⟩ ↔
      Measured ⟨0, 0⟩ ⟨1, 1⟩ ⟨1, 0⟩ :=
  distanceFromLine_right_iff (by norm_num) (by norm_num)

/-- A leg of half a thousandth of a degree in both directions is taken for one along the axis of
`x`. -/
theorem short_leg_wrong :
    |distanceFromLine id ⟨0, 0⟩ ⟨1 / 2000, 1 / 2000⟩ ⟨1 / 2000, 0⟩| ≠
      crossTrack ⟨0, 0⟩ ⟨1 / 2000, 1 / 2000⟩ ⟨1 / 2000, 0⟩ := by
  have hShort : |(1 / 2000 : ℝ) - 0| < 1 / 1000 := by
    rw [sub_zero, abs_of_pos (by norm_num)]
    norm_num
  rw [abs_distanceFromLine, if_pos hShort, ne_eq, eq_crossTrack_iff (by norm_num)]
  norm_num [fromMiddle]

end Sailbot.Control.LineTacker
