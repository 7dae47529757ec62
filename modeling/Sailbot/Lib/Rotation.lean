import Mathlib.LinearAlgebra.Matrix.Determinant.Basic
import Mathlib.LinearAlgebra.UnitaryGroup
import Sailbot.Lib.Plane

/-!
# Rotations of space

Matrices with three rows, and the rotations about the three axes, over the numbers of a program.
Over the real numbers they are the matrices of Mathlib.

* `Vec3`, `Mat3`                 — vectors and matrices.
* `mul3_real`                    — the product is that of matrices.
* `rotY_neg_mul`, `rotZ_neg_mul` — a rotation about an axis is undone by turning back.
* `rotX_mem`, `rotY_mem`, `rotZ_mem` — rotations about an axis are rotations.
* `atan2_polar`, `polar_atan2`   — the angle of a vector, and the vector of an angle.
* `polar_sub`, `turned_back`     — a vector for a turned angle, and turned back by its own one.
* `eq_rotX`                      — a rotation that keeps the first axis is one about this axis.
-/

namespace Sailbot.Lib

open Arith (lit)
open scoped Index

@[ext] structure Vec3 (R : Type) where
  x : R
  y : R
  z : R
  deriving DecidableEq, Repr

abbrev Mat3 (R : Type) := Matrix (Fin 3) (Fin 3) R

section Program

variable {R : Type} [Arith R]

/-- The product of matrices. -/
def mul3 (a b : Mat3 R) : Mat3 R := fun i j => a i 0 * b 0 j + a i 1 * b 1 j + a i 2 * b 2 j

def identity3 : Mat3 R :=
  !![lit 1, lit 0, lit 0;
     lit 0, lit 1, lit 0;
     lit 0, lit 0, lit 1]

/-- The rotation about the first axis. -/
def rotX (a : R) : Mat3 R :=
  !![lit 1, lit 0, lit 0;
     lit 0, Arith.cos a, -Arith.sin a;
     lit 0, Arith.sin a, Arith.cos a]

/-- The rotation about the second axis. -/
def rotY (a : R) : Mat3 R :=
  !![Arith.cos a, lit 0, Arith.sin a;
     lit 0, lit 1, lit 0;
     -Arith.sin a, lit 0, Arith.cos a]

/-- The rotation about the third axis. -/
def rotZ (a : R) : Mat3 R :=
  !![Arith.cos a, -Arith.sin a, lit 0;
     Arith.sin a, Arith.cos a, lit 0;
     lit 0, lit 0, lit 1]

end Program

open Matrix Real

-- ---------------------------------------------------------------------------
-- Matrices over the real numbers
-- ---------------------------------------------------------------------------

/-- The product of the program is that of matrices. -/
theorem mul3_real (a b : Mat3 ℝ) : mul3 a b = a * b := by
  ext i j
  rw [Matrix.mul_apply, Fin.sum_univ_three]
  rfl

/-- The identity of the program is that of matrices. -/
theorem identity3_real : (identity3 : Mat3 ℝ) = 1 := by
  ext i j
  fin_cases i <;> fin_cases j <;> simp [identity3]

/-- A rotation about the first axis. -/
theorem rotX_real (a : ℝ) : rotX a = !![1, 0, 0; 0, cos a, -sin a; 0, sin a, cos a] := by
  ext i j
  fin_cases i <;> fin_cases j <;> simp [rotX] <;> rfl

/-- A rotation about the second axis. -/
theorem rotY_real (a : ℝ) : rotY a = !![cos a, 0, sin a; 0, 1, 0; -sin a, 0, cos a] := by
  ext i j
  fin_cases i <;> fin_cases j <;> simp [rotY] <;> rfl

/-- A rotation about the third axis. -/
theorem rotZ_real (a : ℝ) : rotZ a = !![cos a, -sin a, 0; sin a, cos a, 0; 0, 0, 1] := by
  ext i j
  fin_cases i <;> fin_cases j <;> simp [rotZ] <;> rfl

/-- Turning back about the second axis. -/
theorem rotY_neg_mul (a : ℝ) : rotY (-a) * rotY a = 1 := by
  have hOne := sin_sq_add_cos_sq a
  ext i j
  rw [rotY_real, rotY_real, cos_neg, sin_neg]
  fin_cases i <;> fin_cases j <;> simp [Matrix.mul_apply, Fin.sum_univ_three] <;> linarith

/-- Turning back about the third axis. -/
theorem rotZ_neg_mul (a : ℝ) : rotZ (-a) * rotZ a = 1 := by
  have hOne := sin_sq_add_cos_sq a
  ext i j
  rw [rotZ_real, rotZ_real, cos_neg, sin_neg]
  fin_cases i <;> fin_cases j <;> simp [Matrix.mul_apply, Fin.sum_univ_three] <;> linarith

/-- Turning back about the second axis, in front of something else. -/
theorem rotY_neg_mul_cancel (a : ℝ) (b : Mat3 ℝ) : rotY (-a) * (rotY a * b) = b := by
  rw [← Matrix.mul_assoc, rotY_neg_mul, Matrix.one_mul]

/-- Turning back about the third axis, in front of something else. -/
theorem rotZ_neg_mul_cancel (a : ℝ) (b : Mat3 ℝ) : rotZ (-a) * (rotZ a * b) = b := by
  rw [← Matrix.mul_assoc, rotZ_neg_mul, Matrix.one_mul]

/-- A turn about the first axis is a rotation. -/
theorem rotX_mem (a : ℝ) : rotX a ∈ specialOrthogonalGroup (Fin 3) ℝ := by
  have hOne := sin_sq_add_cos_sq a
  rw [mem_specialOrthogonalGroup_iff, mem_orthogonalGroup_iff, rotX_real, det_fin_three]
  refine ⟨?_, by simp; linarith⟩
  ext i j
  fin_cases i <;> fin_cases j <;> simp [Matrix.mul_apply, Fin.sum_univ_three] <;> linarith

/-- A turn about the second axis is a rotation. -/
theorem rotY_mem (a : ℝ) : rotY a ∈ specialOrthogonalGroup (Fin 3) ℝ := by
  have hOne := sin_sq_add_cos_sq a
  rw [mem_specialOrthogonalGroup_iff, mem_orthogonalGroup_iff, rotY_real, det_fin_three]
  refine ⟨?_, by simp; linarith⟩
  ext i j
  fin_cases i <;> fin_cases j <;> simp [Matrix.mul_apply, Fin.sum_univ_three] <;> linarith

/-- A turn about the third axis is a rotation. -/
theorem rotZ_mem (a : ℝ) : rotZ a ∈ specialOrthogonalGroup (Fin 3) ℝ := by
  have hOne := sin_sq_add_cos_sq a
  rw [mem_specialOrthogonalGroup_iff, mem_orthogonalGroup_iff, rotZ_real, det_fin_three]
  refine ⟨?_, by simp; linarith⟩
  ext i j
  fin_cases i <;> fin_cases j <;> simp [Matrix.mul_apply, Fin.sum_univ_three] <;> linarith

-- ---------------------------------------------------------------------------
-- Angles
-- ---------------------------------------------------------------------------

/-- The angle of a vector that is given by its length and its angle. -/
theorem atan2_polar {r θ : ℝ} (hr : 0 < r) (hθ : -π < θ ∧ θ ≤ π) :
    Arith.atan2 (r * sin θ) (r * cos θ) = θ := by
  refine Eq.trans ?_ (Complex.arg_mul_cos_add_sin_mul_I hr hθ)
  show Complex.arg _ = _
  congr 1
  apply Complex.ext <;> simp [← Complex.ofReal_cos, ← Complex.ofReal_sin]

/-- The vector of a length and an angle. -/
theorem polar_atan2 (x y : ℝ) :
    √(x ^ 2 + y ^ 2) * cos (Arith.atan2 y x) = x ∧
      √(x ^ 2 + y ^ 2) * sin (Arith.atan2 y x) = y := by
  have hPolar := Vec.norm_mul_unit ⟨x, y⟩
  rw [Vec.norm_eq] at hPolar
  exact ⟨congrArg Vec.x hPolar, congrArg Vec.y hPolar⟩

/-- A vector by its length and its angle, for a turned angle. -/
theorem polar_sub (x y a : ℝ) :
    √(x ^ 2 + y ^ 2) * cos (Arith.atan2 y x - a) = cos a * x + sin a * y ∧
      √(x ^ 2 + y ^ 2) * sin (Arith.atan2 y x - a) = -(sin a * x) + cos a * y := by
  obtain ⟨hCos, hSin⟩ := polar_atan2 x y
  constructor
  · rw [cos_sub]
    linear_combination cos a * hCos + sin a * hSin
  · rw [sin_sub]
    linear_combination cos a * hSin - sin a * hCos

/-- Turned back by its angle, a vector lies on the first axis. -/
theorem turned_back (x y : ℝ) :
    cos (Arith.atan2 y x) * x + sin (Arith.atan2 y x) * y = √(x ^ 2 + y ^ 2) ∧
      -(sin (Arith.atan2 y x) * x) + cos (Arith.atan2 y x) * y = 0 := by
  obtain ⟨hCos, hSin⟩ := polar_sub x y (Arith.atan2 y x)
  rw [sub_self, cos_zero, mul_one] at hCos
  rw [sub_self, sin_zero, mul_zero] at hSin
  exact ⟨hCos.symm, hSin.symm⟩

/-- A rotation that keeps the first axis turns by an angle about it. -/
theorem eq_rotX {A : Mat3 ℝ} (hA : A ∈ specialOrthogonalGroup (Fin 3) ℝ)
    (h00 : A 0 0 = 1) (h10 : A 1 0 = 0) (h20 : A 2 0 = 0) :
    A = rotX (Arith.atan2 (A 2 1) (A 1 1)) := by
  obtain ⟨hOrth, hDet⟩ := mem_specialOrthogonalGroup_iff.mp hA
  rw [mem_orthogonalGroup_iff] at hOrth
  have hRow : ∀ i, A i 0 * A i 0 + A i 1 * A i 1 + A i 2 * A i 2 = 1 := by
    intro i
    have hEntry := congrFun (congrFun hOrth i) i
    rwa [Matrix.mul_apply, Fin.sum_univ_three, Matrix.one_apply_eq] at hEntry
  have hRow0 := hRow 0
  have hRow1 := hRow 1
  have hRow2 := hRow 2
  rw [h00] at hRow0
  rw [h10] at hRow1
  rw [h20] at hRow2
  obtain ⟨h01, h02⟩ := mul_self_add_mul_self_eq_zero.mp
    (show A 0 1 * A 0 1 + A 0 2 * A 0 2 = 0 by linarith)
  rw [det_fin_three, h00, h10, h20, h01, h02] at hDet
  -- the two lower rows are a rotation of the plane
  have hZero : (A 2 2 - A 1 1) * (A 2 2 - A 1 1) + (A 2 1 + A 1 2) * (A 2 1 + A 1 2) = 0 := by
    linarith
  obtain ⟨hSame, hOpposite⟩ := mul_self_add_mul_self_eq_zero.mp hZero
  have h22 : A 2 2 = A 1 1 := sub_eq_zero.mp hSame
  have h12 : A 1 2 = -A 2 1 := eq_neg_of_add_eq_zero_right hOpposite
  obtain ⟨hCos, hSin⟩ := polar_atan2 (A 1 1) (A 2 1)
  have hLength : A 1 1 ^ 2 + A 2 1 ^ 2 = 1 := by rw [h12] at hRow1; linarith
  rw [hLength, sqrt_one, one_mul] at hCos hSin
  rw [rotX_real, hCos, hSin]
  ext i j
  fin_cases i <;> fin_cases j <;> simp [h00, h01, h02, h10, h20, h12, h22]

end Sailbot.Lib
