import Sailbot.Control.Angle
import Sailbot.Sim.TrivialDynamics

/-!
# The side of the simulated sail

`TrivialDynamics::Update` sets the sail to the side that the apparent wind blows to. It finds the
direction of the wind on its own, and takes the components of the velocity in the wrong order:
`wind.y() - v.x()` and `wind.x() - v.y()`. What `get_apparent_dir` answers is right.

* `getApparentDir_neg_iff`  — the wind comes from the left where the apparent wind blows to the
  right, and the other way round.
* `apparentWindDir_pos_iff` — the direction that `Update` finds is that of another vector.
* `sailSide_iff`            — the sail is on the right side where the two vectors are on one side of
  the boat.
-/

namespace Sailbot.Sim.TrivialDynamics

open Lib Real Control

/-- The horizontal vector with these components, in the frame of a boat with this yaw. -/
noncomputable def inBoat (yaw : ℝ) (a : Vec ℝ) : Vec ℝ :=
  ⟨cos yaw * a.x + sin yaw * a.y, -(sin yaw * a.x) + cos yaw * a.y⟩

/-- What `Update` takes for the apparent wind. -/
def exchangedWind (s : TrivialDynamics ℝ) : Vec ℝ := ⟨s.wind.x - s.v.y, s.wind.y - s.v.x⟩

/-- The angle from the yaw to that vector. -/
noncomputable def exchangedAngle (s : TrivialDynamics ℝ) : ℝ :=
  Arith.atan2 s.exchangedWind.y s.exchangedWind.x - s.yaw

/-- Whether the direction is positive for a vector along the boat: from ahead, an angle of half a
turn is positive for half a turn and below minus half a turn only. The zero vector has the direction
of the axis of `x`. -/
def PositiveAlong (s : TrivialDynamics ℝ) : Prop :=
  s.exchangedWind ≠ .zero ∧ (inBoat s.yaw s.exchangedWind).x < 0 ∧
      (s.exchangedAngle = π ∨ s.exchangedAngle < -π) ∨
    s.exchangedWind = .zero ∧
      (sin s.yaw < 0 ∨ sin s.yaw = 0 ∧ cos s.yaw < 0 ∧ (s.yaw = -π ∨ π < s.yaw))

/-- The vector that is taken for the apparent wind is on the same side of the boat as the apparent
wind; or it is along the boat, and its direction has the right sign. -/
def SameSide (s : TrivialDynamics ℝ) : Prop :=
  0 < (inBoat s.yaw s.exchangedWind).y * s.apparentWind.y ∨
    (inBoat s.yaw s.exchangedWind).y = 0 ∧ (s.PositiveAlong ↔ 0 < s.apparentWind.y)

/-- After the update, the sail is on the side that the apparent wind blows to, and so as
`get_apparent_dir` had it. -/
def SailSide (s : TrivialDynamics ℝ) (toFloat : ℝ → ℝ) (deltasIn deltarIn : ℝ) : Prop :=
  ∃ s', s.update toFloat deltasIn deltarIn = some s' ∧
    (s'.deltas < 0 ↔ 0 < s.apparentWind.y) ∧ (s'.deltas < 0 ↔ s.getApparentDir < 0)

variable {s s' : TrivialDynamics ℝ} {toFloat : ℝ → ℝ} {deltasIn deltarIn : ℝ}

-- ---------------------------------------------------------------------------
-- Directions
-- ---------------------------------------------------------------------------

/-- The side of the apparent wind, by its second coordinate. -/
theorem getApparentDir_neg_iff (s : TrivialDynamics ℝ) :
    s.getApparentDir < 0 ↔ 0 < s.apparentWind.y := by
  show Complex.arg ⟨-s.apparentWind.x, -s.apparentWind.y⟩ < 0 ↔ _
  rw [Complex.arg_neg_iff, neg_lt_zero]

/-- The apparent wind in the frame of an upright boat. -/
theorem apparentWind_eq (hRbi : s.rbi = rotZ s.yaw) :
    (⟨s.apparentWind.x, s.apparentWind.y⟩ : Vec ℝ) =
      inBoat s.yaw ⟨s.wind.x - s.v.x, s.wind.y - s.v.y⟩ := by
  rw [apparentWind, hRbi, rotZ_real]
  ext <;> simp [inBoat, mulVec3, row3, Vec3.dot]

/-- How far the vector that `Update` takes is off, across the boat. -/
theorem exchangedWind_across (hRbi : s.rbi = rotZ s.yaw) :
    (inBoat s.yaw s.exchangedWind).y =
      s.apparentWind.y - (s.v.x - s.v.y) * (sin s.yaw + cos s.yaw) := by
  have hAcross := congrArg Vec.y (apparentWind_eq hRbi)
  dsimp only at hAcross
  rw [hAcross]
  simp only [inBoat, exchangedWind]
  ring

/-- With the length, the angle has the components of the vector. -/
theorem exchangedAngle_polar (s : TrivialDynamics ℝ) :
    s.exchangedWind.norm * cos s.exchangedAngle = (inBoat s.yaw s.exchangedWind).x ∧
      s.exchangedWind.norm * sin s.exchangedAngle = (inBoat s.yaw s.exchangedWind).y := by
  rw [Vec.norm_eq]
  exact polar_sub s.exchangedWind.x s.exchangedWind.y s.yaw

/-- Without wind and speed only the yaw is left. -/
theorem exchangedAngle_zero (hZero : s.exchangedWind = .zero) : s.exchangedAngle = -s.yaw := by
  have hArg : Arith.atan2 (Vec.zero : Vec ℝ).y (Vec.zero : Vec ℝ).x = (0 : ℝ) := by
    rw [Vec.zero_x, Vec.zero_y]
    exact Complex.arg_zero
  rw [exchangedAngle, hZero, hArg, zero_sub]

/-- When the simulator takes the wind to come from one side. -/
theorem apparentWindDir_pos_iff (s : TrivialDynamics ℝ) :
    0 < s.apparentWindDir ↔
      0 < (inBoat s.yaw s.exchangedWind).y ∨
        (inBoat s.yaw s.exchangedWind).y = 0 ∧ s.PositiveAlong := by
  have hDir : s.apparentWindDir = Util.normAngle s.exchangedAngle := rfl
  rw [hDir, Util.normAngle_pos_iff]
  obtain ⟨hCos, hSin⟩ := exchangedAngle_polar s
  by_cases hZero : s.exchangedWind = .zero
  · have hAngle := exchangedAngle_zero hZero
    have hAcross : (inBoat s.yaw s.exchangedWind).y = 0 := by simp [inBoat, hZero]
    have hLow : -s.yaw < -π ↔ π < s.yaw := neg_lt_neg_iff
    have hHalf : -s.yaw = π ↔ s.yaw = -π := neg_eq_iff_eq_neg
    rw [hAcross, hAngle, sin_neg, cos_neg, neg_pos, neg_eq_zero, hLow, hHalf]
    simp [PositiveAlong, hZero]
  · have hNorm : 0 < s.exchangedWind.norm := by
      have hDiff : s.exchangedWind - .zero = s.exchangedWind := by ext <;> simp
      exact hDiff ▸ Vec.norm_pos (Ne.symm hZero)
    rw [← hSin]
    have hPos : 0 < s.exchangedWind.norm * sin s.exchangedAngle ↔ 0 < sin s.exchangedAngle :=
      mul_pos_iff_of_pos_left hNorm
    have hEq : s.exchangedWind.norm * sin s.exchangedAngle = 0 ↔ sin s.exchangedAngle = 0 :=
      mul_eq_zero_iff_left hNorm.ne'
    have hNeg : (inBoat s.yaw s.exchangedWind).x < 0 ↔ cos s.exchangedAngle < 0 := by
      rw [← hCos]
      exact ⟨fun h => neg_of_mul_neg_right h hNorm.le, mul_neg_of_pos_of_neg hNorm⟩
    simp [PositiveAlong, hZero, hPos, hEq, hNeg]

-- ---------------------------------------------------------------------------
-- The sail
-- ---------------------------------------------------------------------------

/-- Every update has a result. -/
theorem update_total (s : TrivialDynamics ℝ) (toFloat : ℝ → ℝ) (deltasIn deltarIn : ℝ) :
    ∃ s', s.update toFloat deltasIn deltarIn = some s' := ⟨_, rfl⟩

/-- The sail is negative where the direction that was found is positive. -/
theorem sailFor_neg_iff (hIn : 0 < Util.normAngle deltasIn) :
    s.sailFor deltasIn < 0 ↔ 0 < s.apparentWindDir := by
  have hAbs := Util.abs_normAngle_le deltasIn
  have hMax : Arith.max (Util.normAngle deltasIn) (Arith.lit 0) = Util.normAngle deltasIn := by
    rw [Arith.max_real, Arith.lit_real, Rat.cast_zero]
    exact max_eq_left hIn.le
  have hLt : Arith.lt (Arith.lit 0) s.apparentWindDir = true ↔ 0 < s.apparentWindDir := by
    rw [Arith.lt_real, Arith.lit_real, Rat.cast_zero]
  rw [sailFor, hMax]
  split
  case isTrue h =>
    rw [Util.normAngle_of_abs_le (by rwa [abs_neg])]
    exact iff_of_true (neg_lt_zero.mpr hIn) (hLt.mp h)
  case isFalse h =>
    rw [Util.normAngle_of_abs_le hAbs]
    exact iff_of_false (not_lt.mpr hIn.le) (mt hLt.mpr h)

/-- The sail is on the side of the wind, if and only if both directions agree. -/
theorem sailSide_iff_dir (hIn : 0 < Util.normAngle deltasIn) :
    s.SailSide toFloat deltasIn deltarIn ↔ (0 < s.apparentWindDir ↔ 0 < s.apparentWind.y) := by
  have hSail : ∀ s', s.update toFloat deltasIn deltarIn = some s' →
      (s'.deltas < 0 ↔ 0 < s.apparentWindDir) := by
    intro s' hs'
    rw [(update_eq_some hs').1, sailFor_neg_iff hIn]
  constructor
  · rintro ⟨s', hs', hSide, -⟩
    rw [← hSail s' hs', hSide]
  · intro hSide
    obtain ⟨s', hs'⟩ := update_total s toFloat deltasIn deltarIn
    exact ⟨s', hs', (hSail s' hs').trans hSide,
      (hSail s' hs').trans (hSide.trans (getApparentDir_neg_iff s).symm)⟩

/-- Two vectors off the axis are on one side of it where the product is positive. -/
theorem mul_pos_iff_same_side {a b : ℝ} (ha : a ≠ 0) (hb : b ≠ 0) :
    0 < a * b ↔ (0 < a ↔ 0 < b) := by
  constructor
  · exact pos_iff_pos_of_mul_pos
  · intro hSame
    rcases ha.lt_or_gt with hNeg | hPos
    · have hLe : b ≤ 0 := not_lt.mp (mt hSame.mpr hNeg.not_gt)
      exact mul_pos_of_neg_of_neg hNeg (hLe.lt_of_ne hb)
    · exact mul_pos hPos (hSame.mp hPos)

/-- **The side of the sail.** Where the wind is not along the boat, the sail is set to the side that
the apparent wind blows to if and only if the vector with the components of the velocity exchanged
is on the same side of the boat, or along it with a direction of the right sign. -/
theorem sailSide_iff (hWind : s.apparentWind.y ≠ 0) (hIn : 0 < Util.normAngle deltasIn) :
    s.SailSide toFloat deltasIn deltarIn ↔ s.SameSide := by
  rw [sailSide_iff_dir hIn, apparentWindDir_pos_iff, SameSide]
  by_cases hAlong : (inBoat s.yaw s.exchangedWind).y = 0
  · rw [hAlong, zero_mul]
    simp
  · rw [mul_pos_iff_same_side hAlong hWind]
    simp only [hAlong, false_and, or_false]

/-- A boat at the origin with a heading along the axis of `x`. -/
noncomputable def heading (wind v : Vec3 ℝ) : TrivialDynamics ℝ := { init (1 / 100) with
  wind := wind
  v := v }

/-- The apparent wind of a boat that heads along its axis. -/
theorem apparentWind_heading (wind v : Vec3 ℝ) : (heading wind v).apparentWind = wind - v := by
  have hOne : (heading wind v).rbi = 1 := identity3_real
  rw [apparentWind, hOne, Matrix.transpose_one]
  ext <;> simp [heading, mulVec3, row3, Vec3.dot]

theorem normAngle_one_pos : 0 < Util.normAngle (1 : ℝ) := by
  rw [Util.normAngle_of_abs_le (by rw [abs_one]; linarith [two_le_pi])]
  exact one_pos

/-- A boat at one metre a second, with twice of that from starboard: the sail is set to the side
that the wind blows to. -/
theorem sailSide_iff_moving : (heading ⟨0, 2, 0⟩ ⟨1, 0, 0⟩).SailSide id 1 0 := by
  have hWind : (heading ⟨0, 2, 0⟩ ⟨1, 0, 0⟩).apparentWind.y = 2 := by
    rw [apparentWind_heading]
    simp
  have hAcross : (inBoat 0 ⟨(0 : ℝ) - 0, 2 - 1⟩).y = 1 := by
    simp [inBoat]
    norm_num
  have hExchanged : (heading ⟨0, 2, 0⟩ ⟨1, 0, 0⟩).exchangedWind = ⟨0 - 0, 2 - 1⟩ := rfl
  have hYaw : (heading ⟨0, 2, 0⟩ ⟨1, 0, 0⟩).yaw = 0 := Rat.cast_zero
  have hNotAlong : (heading ⟨0, 2, 0⟩ ⟨1, 0, 0⟩).apparentWind.y ≠ 0 := by
    rw [hWind]
    norm_num
  refine (sailSide_iff hNotAlong normAngle_one_pos).mpr (.inl ?_)
  rw [hExchanged, hYaw, hAcross, hWind]
  norm_num

/-- A boat at one metre a second, with half of that from starboard: the sail is set to the side
that the wind comes from. -/
theorem moving_wrong_side : ¬ (heading ⟨0, 1 / 2, 0⟩ ⟨1, 0, 0⟩).SailSide id 1 0 := by
  have hAcross : (inBoat 0 ⟨(0 : ℝ) - 0, 1 / 2 - 1⟩).y = -1 / 2 := by
    simp [inBoat]
    norm_num
  have hExchanged : (heading ⟨0, 1 / 2, 0⟩ ⟨1, 0, 0⟩).exchangedWind = ⟨0 - 0, 1 / 2 - 1⟩ := rfl
  have hYaw : (heading ⟨0, 1 / 2, 0⟩ ⟨1, 0, 0⟩).yaw = 0 := Rat.cast_zero
  rw [sailSide_iff_dir normAngle_one_pos, apparentWindDir_pos_iff, apparentWind_heading,
    hExchanged, hYaw, hAcross]
  simp

/-- Where the velocity has equal components, as at rest, the exchange changes nothing. -/
theorem sameSide_of_symmetric (hRbi : s.rbi = rotZ s.yaw) (hWind : s.apparentWind.y ≠ 0)
    (hEqual : s.v.x = s.v.y) : s.SameSide := by
  have hAcross := exchangedWind_across hRbi
  rw [hEqual, sub_self, zero_mul, sub_zero] at hAcross
  exact .inl (by rw [hAcross]; exact mul_self_pos.mpr hWind)

end Sailbot.Sim.TrivialDynamics
