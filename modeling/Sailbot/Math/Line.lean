import Sailbot.Lib.Plane
import Sailbot.Math.Polygon

/-!
# A point and a line, in exact arithmetic

What `DistToLine`, `ProjectsToLine` and `ProjectsToRay` (`math/polygon.cc`) say over the real
numbers, in terms of `dot` and `cross`.

* `distToLine_eq`       — the signed distance to a line through two points.
* `distToLine_neg_iff`  — its sign, also where the two points are the same.
* `projectsToLine_iff`, `projectsToRay_iff` — the projections.
-/

namespace Sailbot.Math

open Lib

variable {l0 l1 pt : Vec ℝ}

/-- The distance with its side, by the cross product. -/
theorem distToLine_eq (h : l0 ≠ l1) (pt : Vec ℝ) :
    distToLine l0 l1 pt = (l1 - l0).cross (pt - l0) / (l1 - l0).norm := by
  have hPos : 0 < (l1.x - l0.x) ^ 2 + (l1.y - l0.y) ^ 2 := Vec.squaredNorm_pos h
  have hPerp : (⟨l0.y - l1.y, l1.x - l0.x⟩ : Vec ℝ).squaredNorm =
      (l1.x - l0.x) ^ 2 + (l1.y - l0.y) ^ 2 := by
    rw [Vec.squaredNorm_eq]
    ring
  have hNorm : Arith.sqrt ((⟨l0.y - l1.y, l1.x - l0.x⟩ : Vec ℝ).squaredNorm) =
      (l1 - l0).norm := by
    rw [hPerp, Vec.norm_eq]
    rfl
  have hNormalized : (⟨l0.y - l1.y, l1.x - l0.x⟩ : Vec ℝ).normalized =
      (⟨l0.y - l1.y, l1.x - l0.x⟩ : Vec ℝ) / (l1 - l0).norm := by
    rw [Vec.normalized, if_pos, hNorm]
    rw [hPerp, Arith.lt_real, Arith.lit_real, Rat.cast_zero]
    exact hPos
  show (⟨l0.y - l1.y, l1.x - l0.x⟩ : Vec ℝ).normalized.dot (pt - l0) = _
  rw [hNormalized, Vec.dot_eq, Vec.cross]
  simp only [Vec.div_x, Vec.div_y, Vec.sub_x, Vec.sub_y]
  ring

/-- From a line without a direction everything has the distance zero. -/
theorem distToLine_self (l0 pt : Vec ℝ) : distToLine l0 l0 pt = 0 := by
  have hZero : (⟨l0.y - l0.y, l0.x - l0.x⟩ : Vec ℝ) = ⟨0, 0⟩ := by rw [sub_self, sub_self]
  have hNot : ¬ Arith.lt (Arith.lit 0) (⟨0, 0⟩ : Vec ℝ).squaredNorm = true := by
    rw [Vec.squaredNorm_eq]
    simp
  show (⟨l0.y - l0.y, l0.x - l0.x⟩ : Vec ℝ).normalized.dot (pt - l0) = 0
  rw [hZero, Vec.normalized, if_neg hNot, Vec.dot_eq]
  ring

/-- A point is strictly to the right of a line when the code says so. -/
theorem distToLine_neg_iff : distToLine l0 l1 pt < 0 ↔ (l1 - l0).cross (pt - l0) < 0 := by
  by_cases h : l0 = l1
  · subst h
    rw [distToLine_self]
    simp [Vec.cross]
  · rw [distToLine_eq h, div_neg_iff]
    have := Vec.norm_pos h
    constructor
    · rintro (⟨-, hNeg⟩ | ⟨hNeg, -⟩)
      · exact absurd this hNeg.not_gt
      · exact hNeg
    · exact fun hNeg => Or.inr ⟨hNeg, this⟩

/-- A point in front of the start of a ray. -/
theorem projectsToRay_iff :
    projectsToRay l0 l1 pt = true ↔ 0 < (l1 - l0).dot (pt - l0) := by
  show Arith.lt (Arith.lit 0) _ = true ↔ _
  rw [Arith.lt_real, Arith.lit_real, Rat.cast_zero]

/-- A point beside a segment. -/
theorem projectsToLine_iff :
    projectsToLine l0 l1 pt = true ↔
      0 < (l1 - l0).dot (pt - l0) ∧ (l1 - l0).dot (pt - l0) < (l1 - l0).squaredNorm := by
  show (Arith.lt (Arith.lit 0) _ && Arith.lt _ _) = true ↔ _
  rw [Bool.and_eq_true, Arith.lt_real, Arith.lt_real, Arith.lit_real, Rat.cast_zero]

end Sailbot.Math
