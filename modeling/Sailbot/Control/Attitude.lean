import Sailbot.Lib.Rotation

/-!
# Roll, pitch and yaw

`GetRollPitchYaw` and `RollPitchYawToMatrix` (`control/util.cc`). An attitude is built by turning
about the three fixed axes, first roll, then pitch, then yaw. `GetRollPitchYaw` takes the yaw from
the image of the first axis, turns it back, takes the pitch, turns it back, and what is left is the
roll.

* `Util.matrix_of_angles` — the angles of an attitude that was built from angles.
* `Util.angles_of_matrix` — the attitude that is built from the angles of an attitude.
* `Util.rollPitchYaw_inverse` — the two together.
-/

namespace Sailbot.Control.Util

open Lib
open Lib.Arith (lit)
open scoped Lib.Index

section Program

variable {R : Type} [Arith R]

/-- `GetRollPitchYaw`. -/
def getRollPitchYaw (r : Mat3 R) : Vec3 R :=
  let yaw := Arith.atan2 (r 1 0) (r 0 0)
  let r := mul3 (rotZ (-yaw)) r
  let pitch := Arith.atan2 (-r 2 0) (r 0 0)
  let r := mul3 (rotY (-pitch)) r
  let roll := Arith.atan2 (r 2 1) (r 1 1)
  ⟨roll, pitch, yaw⟩

/-- `RollPitchYawToMatrix`. -/
def rollPitchYawToMatrix (angles : Vec3 R) : Mat3 R :=
  let r := mul3 (rotX angles.x) identity3
  let r := mul3 (rotY angles.y) r
  mul3 (rotZ angles.z) r

end Program

open Matrix Real

variable {roll pitch yaw : ℝ}

theorem rollPitchYawToMatrix_real (angles : Vec3 ℝ) :
    rollPitchYawToMatrix angles = rotZ angles.z * (rotY angles.y * rotX angles.x) := by
  rw [rollPitchYawToMatrix, mul3_real, mul3_real, mul3_real, identity3_real, mul_one]

/-- What a rotation about the third axis does to the image of the first one. -/
theorem rotZ_mul_col (a : ℝ) (b : Mat3 ℝ) :
    (rotZ a * b : Mat3 ℝ) 0 0 = cos a * b 0 0 - sin a * b 1 0 ∧
      (rotZ a * b : Mat3 ℝ) 1 0 = sin a * b 0 0 + cos a * b 1 0 ∧
      (rotZ a * b : Mat3 ℝ) 2 0 = b 2 0 := by
  rw [rotZ_real]
  simp [Matrix.mul_apply, Fin.sum_univ_three, sub_eq_add_neg]

theorem rotY_mul_col (a : ℝ) (b : Mat3 ℝ) :
    (rotY a * b : Mat3 ℝ) 0 0 = cos a * b 0 0 + sin a * b 2 0 ∧
      (rotY a * b : Mat3 ℝ) 1 0 = b 1 0 ∧
      (rotY a * b : Mat3 ℝ) 2 0 = -(sin a * b 0 0) + cos a * b 2 0 := by
  rw [rotY_real]
  simp [Matrix.mul_apply, Fin.sum_univ_three]

theorem rotX_col (a : ℝ) :
    (rotX a : Mat3 ℝ) 0 0 = 1 ∧ (rotX a : Mat3 ℝ) 1 0 = 0 ∧ (rotX a : Mat3 ℝ) 2 0 = 0 := by
  rw [rotX_real]
  simp

/-- The angles of an attitude are those it was built from. -/
theorem matrix_of_angles (hRoll : -π < roll ∧ roll ≤ π)
    (hPitch : -(π / 2) < pitch ∧ pitch < π / 2) (hYaw : -π < yaw ∧ yaw ≤ π) :
    getRollPitchYaw (rollPitchYawToMatrix ⟨roll, pitch, yaw⟩) = ⟨roll, pitch, yaw⟩ := by
  have hCos : 0 < cos pitch := cos_pos_of_mem_Ioo hPitch
  obtain ⟨hX00, hX10, hX20⟩ := rotX_col roll
  obtain ⟨hY00, hY10, hY20⟩ := rotY_mul_col pitch (rotX roll)
  obtain ⟨hZ00, hZ10, -⟩ := rotZ_mul_col yaw (rotY pitch * rotX roll)
  rw [hX00, hX20, mul_one, mul_zero, add_zero] at hY00 hY20
  rw [hY00, hY10, hX10, mul_zero, mul_comm] at hZ00 hZ10
  have hYawEq : Arith.atan2 ((rotZ yaw * (rotY pitch * rotX roll) : Mat3 ℝ) 1 0)
      ((rotZ yaw * (rotY pitch * rotX roll) : Mat3 ℝ) 0 0) = yaw := by
    rw [hZ00, hZ10, sub_zero, add_zero, atan2_polar hCos hYaw]
  have hPitchEq : Arith.atan2 (-(rotY pitch * rotX roll : Mat3 ℝ) 2 0)
      ((rotY pitch * rotX roll : Mat3 ℝ) 0 0) = pitch := by
    rw [hY20, hY00, neg_neg, ← one_mul (sin pitch), ← one_mul (cos pitch)]
    exact atan2_polar one_pos ⟨by linarith [pi_pos], by linarith [pi_pos]⟩
  have hRollEq : Arith.atan2 ((rotX roll : Mat3 ℝ) 2 1) ((rotX roll : Mat3 ℝ) 1 1) = roll := by
    have hPolar := atan2_polar one_pos hRoll
    rw [one_mul, one_mul] at hPolar
    rw [rotX_real]
    exact hPolar
  rw [rollPitchYawToMatrix_real]
  unfold getRollPitchYaw
  simp only [mul3_real]
  rw [hYawEq, rotZ_neg_mul_cancel, hPitchEq, rotY_neg_mul_cancel, hRollEq]

/-- Without its yaw, the image of the first axis is over the first axis. -/
theorem unyaw (r : Mat3 ℝ) :
    (rotZ (-Arith.atan2 (r 1 0) (r 0 0)) * r : Mat3 ℝ) 0 0 = √(r 0 0 ^ 2 + r 1 0 ^ 2) ∧
      (rotZ (-Arith.atan2 (r 1 0) (r 0 0)) * r : Mat3 ℝ) 1 0 = 0 ∧
      (rotZ (-Arith.atan2 (r 1 0) (r 0 0)) * r : Mat3 ℝ) 2 0 = r 2 0 := by
  obtain ⟨h00, h10, h20⟩ := rotZ_mul_col (-Arith.atan2 (r 1 0) (r 0 0)) r
  obtain ⟨hLength, hZero⟩ := turned_back (r 0 0) (r 1 0)
  rw [cos_neg, sin_neg, neg_mul, sub_neg_eq_add] at h00
  rw [cos_neg, sin_neg, neg_mul] at h10
  exact ⟨h00.trans hLength, h10.trans hZero, h20⟩

/-- Without its pitch, it is on the first axis. -/
theorem unpitch (r : Mat3 ℝ) (hUnit : r 0 0 ^ 2 + r 2 0 ^ 2 = 1) :
    (rotY (-Arith.atan2 (-r 2 0) (r 0 0)) * r : Mat3 ℝ) 0 0 = 1 ∧
      (rotY (-Arith.atan2 (-r 2 0) (r 0 0)) * r : Mat3 ℝ) 1 0 = r 1 0 ∧
      (rotY (-Arith.atan2 (-r 2 0) (r 0 0)) * r : Mat3 ℝ) 2 0 = 0 := by
  obtain ⟨h00, h10, h20⟩ := rotY_mul_col (-Arith.atan2 (-r 2 0) (r 0 0)) r
  obtain ⟨hLength, hZero⟩ := turned_back (r 0 0) (-r 2 0)
  rw [neg_sq, hUnit, sqrt_one] at hLength
  rw [cos_neg, sin_neg] at h00 h20
  refine ⟨?_, h10, ?_⟩
  · rw [h00, neg_mul, ← mul_neg, hLength]
  · rw [h20, neg_mul, neg_neg]
    linarith

/-- An attitude is built from its angles. -/
theorem angles_of_matrix {r : Mat3 ℝ} (hr : r ∈ specialOrthogonalGroup (Fin 3) ℝ) :
    rollPitchYawToMatrix (getRollPitchYaw r) = r := by
  obtain ⟨hOrth, -⟩ := mem_specialOrthogonalGroup_iff.mp hr
  have hUnit : r 0 0 ^ 2 + r 1 0 ^ 2 + r 2 0 ^ 2 = 1 := by
    have hEntry := congrFun (congrFun ((mem_orthogonalGroup_iff' (Fin 3) ℝ).mp hOrth) 0) 0
    rw [Matrix.mul_apply, Fin.sum_univ_three, Matrix.one_apply_eq] at hEntry
    simp only [Matrix.transpose_apply] at hEntry
    linarith
  obtain ⟨h00, h10, h20⟩ := unyaw r
  set yaw := Arith.atan2 (r 1 0) (r 0 0)
  set r₁ : Mat3 ℝ := rotZ (-yaw) * r with hr₁
  have hUnit₁ : r₁ 0 0 ^ 2 + r₁ 2 0 ^ 2 = 1 := by
    rw [h00, h20, sq_sqrt (by positivity), hUnit]
  obtain ⟨k00, k10, k20⟩ := unpitch r₁ hUnit₁
  set pitch := Arith.atan2 (-r₁ 2 0) (r₁ 0 0)
  -- what is left is the roll
  have hLeft := eq_rotX (Submonoid.mul_mem _ (rotY_mem (-pitch))
    (Submonoid.mul_mem _ (rotZ_mem (-yaw)) hr)) k00 (k10.trans h10) k20
  have hAngles : getRollPitchYaw r = ⟨Arith.atan2 ((rotY (-pitch) * r₁ : Mat3 ℝ) 2 1)
      ((rotY (-pitch) * r₁ : Mat3 ℝ) 1 1), pitch, yaw⟩ := by
    unfold getRollPitchYaw
    simp only [mul3_real]
    rfl
  have hUndoY := rotY_neg_mul_cancel (-pitch) r₁
  have hUndoZ := rotZ_neg_mul_cancel (-yaw) r
  rw [neg_neg] at hUndoY hUndoZ
  rw [hAngles, rollPitchYawToMatrix_real, ← hLeft, hUndoY, hr₁, hUndoZ]

/-- **Roll, pitch and yaw.** Taking the angles and building the attitude undo each other. -/
theorem rollPitchYaw_inverse :
    (∀ roll pitch yaw : ℝ, -π < roll ∧ roll ≤ π → -(π / 2) < pitch ∧ pitch < π / 2 →
      -π < yaw ∧ yaw ≤ π →
      getRollPitchYaw (rollPitchYawToMatrix ⟨roll, pitch, yaw⟩) = ⟨roll, pitch, yaw⟩) ∧
    ∀ r ∈ specialOrthogonalGroup (Fin 3) ℝ, ¬ (r 0 0 = 0 ∧ r 1 0 = 0) →
      rollPitchYawToMatrix (getRollPitchYaw r) = r :=
  ⟨fun _ _ _ => matrix_of_angles, fun _ hr _ => angles_of_matrix hr⟩

/-- Half a turn of roll, and the attitude without any turn. -/
theorem rollPitchYaw_inverse_at :
    getRollPitchYaw (rollPitchYawToMatrix ⟨π, 0, 0⟩) = ⟨π, 0, 0⟩ ∧
      rollPitchYawToMatrix (getRollPitchYaw (1 : Mat3 ℝ)) = 1 := by
  have hPos := pi_pos
  refine ⟨rollPitchYaw_inverse.1 π 0 0 ⟨by linarith, le_rfl⟩ ⟨by linarith, by linarith⟩
    ⟨by linarith, by linarith⟩, rollPitchYaw_inverse.2 1 (Submonoid.one_mem _) fun h => ?_⟩
  rw [Matrix.one_apply_eq] at h
  exact one_ne_zero h.1

end Sailbot.Control.Util
