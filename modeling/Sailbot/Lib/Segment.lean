import Mathlib.Analysis.Convex.Topology
import Mathlib.Analysis.Normed.Group.AddTorsor
import Sailbot.Lib.Plane

/-!
# Distances to segments and lines

The point of a segment in the plane that is nearest to another point, by the sign of two
products: if the point projects onto the inside of the segment, it is the foot of the
perpendicular, and otherwise one of the ends. All points on the other side of a line are at
least as far away as the line.

* `Vec.exists_foot`            — the foot, and how far it is.
* `Vec.dist_of_not_projects`   — the ends.
* `Vec.dist_of_sides`          — the other side of a line.
* `Vec.infDist_line`           — the distance to a line.
-/

namespace Sailbot.Lib.Vec

variable {a b c : Vec ℝ} {z : ℂ}

theorem mem_segment_iff : z ∈ segment ℝ a.toComplex b.toComplex ↔
    ∃ t : ℝ, 0 ≤ t ∧ t ≤ 1 ∧ ofComplex z = a + t * (b - a) := by
  rw [segment_eq_image']
  constructor
  · rintro ⟨t, ⟨ht0, ht1⟩, rfl⟩
    exact ⟨t, ht0, ht1, Vec.ext (by simp) (by simp)⟩
  · rintro ⟨t, ht0, ht1, hEq⟩
    have hx := congrArg x hEq
    have hy := congrArg y hEq
    exact ⟨t, ⟨ht0, ht1⟩, Complex.ext (by simpa using hx.symm) (by simpa using hy.symm)⟩

/-- The distances to the points of a line, and where the line is met at a right angle. -/
theorem squaredNorm_mul_dist (t : ℝ) :
    (b - a).squaredNorm * (c - (a + t * (b - a))).squaredNorm =
      (b - a).cross (c - a) ^ 2 + ((b - a).dot (c - a) - t * (b - a).squaredNorm) ^ 2 := by
  simp only [squaredNorm_eq, dot_eq, cross, sub_x, sub_y, add_x, add_y, smul_x, smul_y]
  ring

theorem norm_sq_eq (a : Vec ℝ) : a.norm ^ 2 = a.squaredNorm := by
  rw [norm_sq, squaredNorm_eq]

theorem norm_lt_norm_iff : a.norm < b.norm ↔ a.squaredNorm < b.squaredNorm := by
  rw [← norm_sq_eq, ← norm_sq_eq]
  exact (sq_lt_sq₀ a.norm_nonneg b.norm_nonneg).symm

theorem norm_le_norm_iff : a.norm ≤ b.norm ↔ a.squaredNorm ≤ b.squaredNorm := by
  rw [← norm_sq_eq, ← norm_sq_eq]
  exact (sq_le_sq₀ a.norm_nonneg b.norm_nonneg).symm

/-- The foot of the perpendicular, and how far it is. -/
theorem dist_foot (hLength : 0 < (b - a).squaredNorm) :
    dist c.toComplex
        (a + ((b - a).dot (c - a) / (b - a).squaredNorm) * (b - a)).toComplex =
      |(b - a).cross (c - a)| / (b - a).norm := by
  have hNorm : 0 < (b - a).norm := by
    have := (b - a).norm_sq_eq
    have := (b - a).norm_nonneg
    nlinarith
  have hFoot := squaredNorm_mul_dist (a := a) (b := b) (c := c)
    ((b - a).dot (c - a) / (b - a).squaredNorm)
  rw [div_mul_cancel₀ _ hLength.ne', sub_self] at hFoot
  rw [dist_toComplex, ofComplex_toComplex, eq_div_iff hNorm.ne']
  refine (sq_eq_sq₀ (mul_nonneg (norm_nonneg _) hNorm.le) (abs_nonneg _)).mp ?_
  rw [mul_pow, norm_sq_eq, norm_sq_eq, sq_abs]
  linarith

/-- A point that projects onto the inside of a segment has its foot there, and the foot is
nearer than the end. -/
theorem exists_foot (hPos : 0 < (b - a).dot (c - a))
    (hLt : (b - a).dot (c - a) < (b - a).squaredNorm) :
    ∃ z ∈ segment ℝ a.toComplex b.toComplex,
      dist c.toComplex z = |(b - a).cross (c - a)| / (b - a).norm ∧
        dist c.toComplex z < (c - a).norm ∧ dist c.toComplex z < (c - b).norm := by
  have hLength : 0 < (b - a).squaredNorm := hPos.trans hLt
  set t : ℝ := (b - a).dot (c - a) / (b - a).squaredNorm with ht
  have hFoot : t * (b - a).squaredNorm = (b - a).dot (c - a) := div_mul_cancel₀ _ hLength.ne'
  have hAt (s : ℝ) := squaredNorm_mul_dist (a := a) (b := b) (c := c) s
  have hStart : c - (a + (0 : ℝ) * (b - a)) = c - a := Vec.ext (by simp) (by simp)
  have hEnd : c - (a + (1 : ℝ) * (b - a)) = c - b := Vec.ext (by simp) (by simp)
  have hFootAt := hAt t
  have hStartAt := hAt 0
  have hEndAt := hAt 1
  rw [hFoot, sub_self] at hFootAt
  rw [hStart] at hStartAt
  rw [hEnd] at hEndAt
  refine ⟨(a + t * (b - a)).toComplex, ?_, ?_, ?_, ?_⟩
  · refine mem_segment_iff.mpr ⟨t, div_nonneg hPos.le hLength.le, ?_, rfl⟩
    exact (div_le_one hLength).mpr hLt.le
  · exact dist_foot hLength
  · rw [dist_toComplex, ofComplex_toComplex, norm_lt_norm_iff]
    refine lt_of_mul_lt_mul_left (a := (b - a).squaredNorm) ?_ hLength.le
    have : 0 < (b - a).dot (c - a) ^ 2 := by positivity
    linarith
  · rw [dist_toComplex, ofComplex_toComplex, norm_lt_norm_iff]
    refine lt_of_mul_lt_mul_left (a := (b - a).squaredNorm) ?_ hLength.le
    have : 0 < ((b - a).squaredNorm - (b - a).dot (c - a)) ^ 2 := pow_pos (by linarith) 2
    linarith

/-- A point that does not project onto the inside of a segment is nearest to one of its ends. -/
theorem dist_of_not_projects
    (h : ¬ (0 < (b - a).dot (c - a) ∧ (b - a).dot (c - a) < (b - a).squaredNorm))
    (hz : z ∈ segment ℝ a.toComplex b.toComplex) :
    (c - a).norm ≤ dist c.toComplex z ∨ (c - b).norm ≤ dist c.toComplex z := by
  obtain ⟨t, ht0, ht1, hEq⟩ := mem_segment_iff.mp hz
  rw [dist_toComplex, hEq, norm_le_norm_iff, norm_le_norm_iff]
  have hLength : 0 ≤ (b - a).squaredNorm := by
    rw [squaredNorm_eq]
    positivity
  have hStart : (c - (a + t * (b - a))).squaredNorm =
      (c - a).squaredNorm - 2 * t * (b - a).dot (c - a) + t ^ 2 * (b - a).squaredNorm := by
    simp only [squaredNorm_eq, dot_eq, sub_x, sub_y, add_x, add_y, smul_x, smul_y]
    ring
  have hEnd : (c - b).squaredNorm =
      (c - a).squaredNorm - 2 * (b - a).dot (c - a) + (b - a).squaredNorm := by
    simp only [squaredNorm_eq, dot_eq, sub_x, sub_y]
    ring
  by_cases hBehind : 0 < (b - a).dot (c - a)
  · have hBeyond : (b - a).squaredNorm ≤ (b - a).dot (c - a) :=
      not_lt.mp fun hLt => h ⟨hBehind, hLt⟩
    have hRest := mul_nonneg (sub_nonneg.mpr ht1) (sub_nonneg.mpr hBeyond)
    have hSq := mul_nonneg (sq_nonneg (1 - t)) hLength
    exact .inr (by linarith)
  · have hProd := mul_nonneg ht0 (sub_nonneg.mpr (not_lt.mp hBehind))
    have hSq := mul_nonneg (sq_nonneg t) hLength
    exact .inl (by linarith)

/-- Two points on different sides of a line: each is at least as far from the other as from the
line. -/
theorem dist_of_sides (hab : a ≠ b) (hc : (b - a).cross (c - a) ≤ 0)
    (hz : 0 ≤ (b - a).cross (ofComplex z - a)) :
    |(b - a).cross (c - a)| / (b - a).norm ≤ dist c.toComplex z := by
  rw [div_le_iff₀ (norm_pos hab), dist_toComplex, abs_of_nonpos hc, mul_comm]
  have hDiff : (b - a).cross (c - ofComplex z) =
      (b - a).cross (c - a) - (b - a).cross (ofComplex z - a) := by
    simp only [cross, sub_x, sub_y]
    ring
  have hLe := (neg_le_abs _).trans (abs_cross_le (b - a) (c - ofComplex z))
  rw [hDiff] at hLe
  linarith

theorem mem_line_iff : z ∈ line[ℝ, a.toComplex, b.toComplex] ↔
    ∃ t : ℝ, ofComplex z = a + t * (b - a) := by
  rw [mem_affineSpan_pair_iff_exists_lineMap_eq]
  constructor
  · rintro ⟨t, rfl⟩
    refine ⟨t, Vec.ext ?_ ?_⟩ <;> simp [AffineMap.lineMap_apply] <;> ring
  · rintro ⟨t, hEq⟩
    have hx := congrArg x hEq
    have hy := congrArg y hEq
    refine ⟨t, Complex.ext ?_ ?_⟩
    · simpa [AffineMap.lineMap_apply, add_comm] using hx.symm
    · simpa [AffineMap.lineMap_apply, add_comm] using hy.symm

/-- The distance to a line is the one to the foot of the perpendicular. -/
theorem infDist_line (hab : a ≠ b) :
    Metric.infDist c.toComplex line[ℝ, a.toComplex, b.toComplex] =
      |(b - a).cross (c - a)| / (b - a).norm := by
  have hNorm : 0 < (b - a).norm := norm_pos hab
  have hLength : 0 < (b - a).squaredNorm := by
    rw [← norm_sq_eq]
    positivity
  refine le_antisymm ?_ ?_
  · rw [← dist_foot hLength]
    exact Metric.infDist_le_dist_of_mem (mem_line_iff.mpr ⟨_, rfl⟩)
  · refine (Metric.le_infDist ⟨_, left_mem_affineSpan_pair ℝ _ _⟩).mpr ?_
    intro z hz
    obtain ⟨t, hEq⟩ := mem_line_iff.mp hz
    have hAt := squaredNorm_mul_dist (a := a) (b := b) (c := c) t
    rw [dist_toComplex, hEq, div_le_iff₀ hNorm]
    refine (sq_le_sq₀ (abs_nonneg _) (mul_nonneg (norm_nonneg _) hNorm.le)).mp ?_
    rw [mul_pow, norm_sq_eq, norm_sq_eq, sq_abs]
    linarith [sq_nonneg ((b - a).dot (c - a) - t * (b - a).squaredNorm)]

end Sailbot.Lib.Vec
