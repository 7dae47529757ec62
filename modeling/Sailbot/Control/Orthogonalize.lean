import Sailbot.Lib.Space

/-!
# Repairing an attitude

`Orthogonalize` (`control/util.cc`) takes the rows of a matrix that is nearly a rotation, and makes
them orthonormal to first order. The first row is the product of the third and the second one,
which is the opposite of the first row of a rotation.

* `Util.orthogonalize_orthogonal` — what becomes of an orthogonal matrix.
* `Util.orthogonalize_eq_iff`     — the orthogonal matrices that are kept are those that are not
  rotations.
* `Util.orthogonalize_rotation`   — a rotation is mirrored.
-/

namespace Sailbot.Control.Util

open Lib
open Lib.Arith (lit)
open scoped Lib.Index

section Program

variable {R : Type} [Arith R]

/-- `Skew`. -/
def skew (x : Vec3 R) : Mat3 R :=
  !![lit 0, -x.z, x.y;
     x.z, lit 0, -x.x;
     -x.y, x.x, lit 0]

/-- `Orthogonalize`. -/
def orthogonalize (r : Mat3 R) : Mat3 R :=
  let err := (row3 r 0).dot (row3 r 1)
  let rn₂ := row3 r 2 - err / lit 2 * row3 r 1
  let rn₁ := row3 r 1 - err / lit 2 * row3 r 2
  let rn₀ := rn₂.cross rn₁
  ofRows
    (rn₀ * (lit (1 / 2) * (lit 3 - rn₀.squaredNorm)))
    (rn₁ * (lit (1 / 2) * (lit 3 - rn₁.squaredNorm)))
    (rn₂ * (lit (1 / 2) * (lit 3 - rn₂.squaredNorm)))

end Program

open Matrix

variable {A : Mat3 ℝ}

/-- A row of length one is not scaled. -/
theorem scale_unit {a : Vec3 ℝ} (ha : a.squaredNorm = 1) :
    a * (lit (1 / 2) * (lit 3 - a.squaredNorm) : ℝ) = a := by
  have hScale : (lit (1 / 2) * (lit 3 - a.squaredNorm) : ℝ) = 1 := by
    rw [ha, Arith.lit_real, Arith.lit_real]
    norm_num
  rw [hScale]
  ext <;> simp

/-- Only the first row can change, by its sign. -/
theorem orthogonalize_orthogonal (hA : A ∈ orthogonalGroup (Fin 3) ℝ) :
    orthogonalize A = ofRows (-A.det * row3 A 0) (row3 A 1) (row3 A 2) := by
  have hErr : (row3 A 0).dot (row3 A 1) = 0 := dot_row3 hA 0 1
  have hRow : ∀ a b : Vec3 ℝ, a - (row3 A 0).dot (row3 A 1) / lit 2 * b = a := by
    intro a b
    rw [hErr]
    ext <;> simp
  have hUnit : ∀ i, (row3 A i).squaredNorm = 1 := fun i => (dot_row3 hA i i).trans (if_pos rfl)
  have hFirst : (-A.det * row3 A 0).squaredNorm = 1 := by
    rw [Vec3.squaredNorm_smul, neg_mul_neg, det_mul_self hA, hUnit, one_mul]
  unfold orthogonalize
  dsimp only
  rw [hRow, hRow, cross_row3 hA, scale_unit hFirst, scale_unit (hUnit 1), scale_unit (hUnit 2)]

/-- What is kept has the first row on the wrong side of the others. -/
theorem orthogonalize_eq_iff (hA : A ∈ orthogonalGroup (Fin 3) ℝ) :
    orthogonalize A = A ↔ A.det = -1 := by
  rw [orthogonalize_orthogonal hA]
  constructor
  · intro hEq
    have hRow : -A.det * row3 A 0 = row3 A 0 := congrArg (row3 · 0) hEq
    have hUnit : (row3 A 0).dot (row3 A 0) = 1 := dot_row3 hA 0 0
    have hDot : (row3 A 0).dot (-A.det * row3 A 0) = (row3 A 0).dot (row3 A 0) := by rw [hRow]
    rw [Vec3.dot_smul, hUnit] at hDot
    linarith
  · intro hDet
    rw [hDet, neg_neg, Vec3.one_smul, ofRows_row3]

/-- A rotation comes out with its first row turned around. -/
theorem orthogonalize_rotation (hA : A ∈ specialOrthogonalGroup (Fin 3) ℝ) :
    orthogonalize A = mirror * A := by
  obtain ⟨hOrth, hDet⟩ := mem_specialOrthogonalGroup_iff.mp hA
  rw [orthogonalize_orthogonal hOrth, hDet, mirror_mul, Vec3.neg_one_smul]

/-- What a rotation becomes is kept. -/
theorem orthogonalize_mirror (hA : A ∈ specialOrthogonalGroup (Fin 3) ℝ) :
    orthogonalize (mirror * A) = mirror * A := by
  obtain ⟨hOrth, hDet⟩ := mem_specialOrthogonalGroup_iff.mp hA
  rw [orthogonalize_eq_iff (mul_mem mirror_mem hOrth), det_mul, det_mirror, hDet, mul_one]

/-- An orthogonal matrix stays orthogonal. -/
theorem orthogonalize_mem (hA : A ∈ orthogonalGroup (Fin 3) ℝ) :
    orthogonalize A ∈ orthogonalGroup (Fin 3) ℝ := by
  rcases mul_self_eq_one_iff.mp (det_mul_self hA) with hDet | hDet
  · rw [orthogonalize_rotation (mem_specialOrthogonalGroup_iff.mpr ⟨hA, hDet⟩)]
    exact mul_mem mirror_mem hA
  · rwa [(orthogonalize_eq_iff hA).mpr hDet]

/-- A mast that is upright stays so. -/
theorem orthogonalize_upright (hA : A ∈ orthogonalGroup (Fin 3) ℝ) :
    orthogonalize A 0 2 = 0 ∧ orthogonalize A 1 2 = 0 ↔ A 0 2 = 0 ∧ A 1 2 = 0 := by
  have hFirst : orthogonalize A 0 2 = -A.det * A 0 2 := by
    rw [orthogonalize_orthogonal hA]
    rfl
  have hSecond : orthogonalize A 1 2 = A 1 2 := by
    rw [orthogonalize_orthogonal hA]
    rfl
  have hNe : -A.det ≠ 0 := by
    intro hZero
    have := det_mul_self hA
    rw [neg_eq_zero.mp hZero] at this
    norm_num at this
  rw [hFirst, hSecond, mul_eq_zero, or_iff_right hNe]

/-- The attitude at the start of a simulation is mirrored. -/
theorem identity_not_kept : orthogonalize (1 : Mat3 ℝ) ≠ 1 := by
  intro hEq
  have hDet := (orthogonalize_eq_iff (one_mem _)).mp hEq
  rw [det_one] at hDet
  norm_num at hDet

end Sailbot.Control.Util
