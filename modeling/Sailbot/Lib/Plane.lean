import Mathlib.Algebra.Group.ModEq
import Mathlib.Analysis.CStarAlgebra.Classes
import Mathlib.Analysis.SpecialFunctions.Complex.Arg
import Mathlib.Analysis.SpecialFunctions.Pow.Real
import Mathlib.Analysis.SpecialFunctions.Trigonometric.Arctan
import Mathlib.Geometry.Euclidean.Angle.Unoriented.Basic
import Mathlib.Topology.Algebra.Module.ModuleTopology
import Sailbot.Lib.Arith

/-!
# Exact real arithmetic and the plane

The real numbers as the numbers of a program, without rounding, and the geometry of vectors
over them. Lengths and directions are compared through `dot` and `cross`, so that the facts
here are about polynomials. `trunc` has no bound: a program that casts to an `int` of 32 bits
does the same only where the number fits.

* `Arith ℝ`        — the instance.
* `Vec.cross`      — positive when the second vector points to the left of the first.
* `Vec.lagrange`   — the length of a vector by its two coordinates along and across another.
* `Vec.toComplex`  — the vectors as complex numbers, for distances to sets of points.
* `Vec.angle`      — the angle between two vectors.
* `Vec.unit`       — the vectors of length one, by their direction.
-/

namespace Sailbot.Lib

open Arith (lit)

noncomputable instance : Arith ℝ where
  lit q := q
  litf q := q
  mPi := Real.pi
  lt a b := decide (a < b)
  le a b := decide (a ≤ b)
  eq a b := decide (a = b)
  isNaN _ := false
  inf := 0
  ltInf _ := true
  trunc a := if 0 ≤ a then ⌊a⌋ else ⌈a⌉
  floor a := ⌊a⌋
  sqrt := Real.sqrt
  exp := Real.exp
  sin := Real.sin
  cos := Real.cos
  atan2 y x := Complex.arg ⟨x, y⟩
  atan2f y x := Complex.arg ⟨x, y⟩
  pow a b := a ^ b

noncomputable instance : Trig ℝ where
  tan := Real.tan
  asin := Real.arcsin
  atan := Real.arctan

namespace Arith

@[simp] theorem lt_real {a b : ℝ} : lt a b = true ↔ a < b := decide_eq_true_iff

@[simp] theorem le_real {a b : ℝ} : le a b = true ↔ a ≤ b := decide_eq_true_iff

@[simp] theorem eq_real {a b : ℝ} : Arith.eq a b = true ↔ a = b := decide_eq_true_iff

@[simp] theorem lit_real (q : ℚ) : (lit q : ℝ) = q := rfl

/-- The absolute value of a program over the real numbers is the usual one. -/
theorem abs_real (a : ℝ) : Arith.abs a = |a| := by
  rw [Arith.abs]
  simp only [lt_real, lit_real, Rat.cast_zero]
  split
  case isTrue h => exact (abs_of_neg h).symm
  case isFalse h => exact (abs_of_nonneg (not_lt.mp h)).symm

instance : StrictOrder ℝ where
  irrefl a := decide_eq_false (lt_irrefl a)
  trans _ _ _ hab hbc := lt_real.mpr (lt_trans (lt_real.mp hab) (lt_real.mp hbc))

/-- `std::min` over the real numbers. -/
theorem min_real (a b : ℝ) : Arith.min a b = Min.min a b := by
  rw [Arith.min]
  split
  case isTrue h => exact (min_eq_right (lt_real.mp h).le).symm
  case isFalse h => exact (min_eq_left (not_lt.mp (mt lt_real.mpr h))).symm

/-- `std::max` over the real numbers. -/
theorem max_real (a b : ℝ) : Arith.max a b = Max.max a b := by
  rw [Arith.max]
  split
  case isTrue h => exact (max_eq_right (lt_real.mp h).le).symm
  case isFalse h => exact (max_eq_left (not_lt.mp (mt lt_real.mpr h))).symm

end Arith

namespace Vec

variable (a b c : Vec ℝ) (k : ℝ)

@[simp] theorem add_x : (a + b).x = a.x + b.x := rfl
@[simp] theorem add_y : (a + b).y = a.y + b.y := rfl
@[simp] theorem sub_x : (a - b).x = a.x - b.x := rfl
@[simp] theorem sub_y : (a - b).y = a.y - b.y := rfl
@[simp] theorem neg_x : (-a).x = -a.x := rfl
@[simp] theorem neg_y : (-a).y = -a.y := rfl
@[simp] theorem smul_x : (k * a).x = k * a.x := rfl
@[simp] theorem smul_y : (k * a).y = k * a.y := rfl
@[simp] theorem mul_x : (a * k).x = a.x * k := rfl
@[simp] theorem mul_y : (a * k).y = a.y * k := rfl
@[simp] theorem div_x : (a / k).x = a.x / k := rfl
@[simp] theorem div_y : (a / k).y = a.y / k := rfl
@[simp] theorem zero_x : (zero : Vec ℝ).x = 0 := Rat.cast_zero
@[simp] theorem zero_y : (zero : Vec ℝ).y = 0 := Rat.cast_zero

/-- The product of two vectors by their coordinates. -/
theorem dot_eq : a.dot b = a.x * b.x + a.y * b.y := rfl

/-- The square of the length by the coordinates. -/
theorem squaredNorm_eq : a.squaredNorm = a.x ^ 2 + a.y ^ 2 := by
  show a.x * a.x + a.y * a.y = _
  ring

/-- The length by the coordinates. -/
theorem norm_eq : a.norm = Real.sqrt (a.x ^ 2 + a.y ^ 2) := by
  rw [← squaredNorm_eq]
  rfl

/-- `a.cross b` is positive when `b` points to the left of `a`. -/
def cross (a b : Vec ℝ) : ℝ := a.x * b.y - a.y * b.x

theorem norm_nonneg : 0 ≤ a.norm := by
  rw [norm_eq]
  exact Real.sqrt_nonneg _

/-- Pythagoras. -/
theorem norm_sq : a.norm ^ 2 = a.x ^ 2 + a.y ^ 2 := by
  rw [norm_eq, Real.sq_sqrt (by positivity)]

variable {a b c k}

/-- A vector is shorter than a bound if its square is less than the square of the bound. -/
theorem norm_lt_iff (hk : 0 < k) : a.norm < k ↔ a.x ^ 2 + a.y ^ 2 < k ^ 2 := by
  rw [norm_eq, Real.sqrt_lt' hk]

/-- Different points have a distance, also without the root. -/
theorem squaredNorm_pos (h : a ≠ b) : 0 < (b.x - a.x) ^ 2 + (b.y - a.y) ^ 2 := by
  by_contra hZero
  have hx : b.x - a.x = 0 := by nlinarith [sq_nonneg (b.x - a.x), sq_nonneg (b.y - a.y)]
  have hy : b.y - a.y = 0 := by nlinarith [sq_nonneg (b.x - a.x), sq_nonneg (b.y - a.y)]
  exact h (Vec.ext (by linarith) (by linarith))

/-- The way between different points has a length. -/
theorem norm_pos (h : a ≠ b) : 0 < (b - a).norm := by
  rw [norm_eq]
  exact Real.sqrt_pos.mpr (squaredNorm_pos h)

/-- The square of a length is the sum of the squares of the coordinates along and across
another vector. -/
theorem lagrange (u a : Vec ℝ) :
    (u.x ^ 2 + u.y ^ 2) * (a.x ^ 2 + a.y ^ 2) = u.dot a ^ 2 + u.cross a ^ 2 := by
  rw [dot_eq, cross]
  ring

/-- A vector is no longer than a bound if its square is no larger than that of the bound. -/
theorem norm_le_iff (hk : 0 ≤ k) : a.norm ≤ k ↔ a.x ^ 2 + a.y ^ 2 ≤ k ^ 2 := by
  rw [norm_eq, Real.sqrt_le_left hk]

/-- The area that two vectors span is at most the product of their lengths. -/
theorem abs_cross_le (u a : Vec ℝ) : |u.cross a| ≤ u.norm * a.norm := by
  refine abs_le_of_sq_le_sq ?_ (mul_nonneg u.norm_nonneg a.norm_nonneg)
  rw [mul_pow, norm_sq, norm_sq, lagrange]
  linarith [sq_nonneg (u.dot a)]

-- ---------------------------------------------------------------------------
-- Complex numbers
-- ---------------------------------------------------------------------------

def toComplex (a : Vec ℝ) : ℂ := ⟨a.x, a.y⟩

def ofComplex (z : ℂ) : Vec ℝ := ⟨z.re, z.im⟩

@[simp] theorem ofComplex_x (z : ℂ) : (ofComplex z).x = z.re := rfl
@[simp] theorem ofComplex_y (z : ℂ) : (ofComplex z).y = z.im := rfl
@[simp] theorem toComplex_re (a : Vec ℝ) : a.toComplex.re = a.x := rfl
@[simp] theorem toComplex_im (a : Vec ℝ) : a.toComplex.im = a.y := rfl
@[simp] theorem ofComplex_toComplex (a : Vec ℝ) : ofComplex a.toComplex = a := rfl

/-- The length of a vector is that of the complex number. -/
theorem norm_toComplex (a : Vec ℝ) : ‖a.toComplex‖ = a.norm := by
  rw [Complex.norm_eq_sqrt_sq_add_sq, norm_eq]
  rfl

/-- The distance to a complex number. -/
theorem dist_toComplex (a : Vec ℝ) (z : ℂ) : dist a.toComplex z = (a - ofComplex z).norm := by
  rw [dist_eq_norm, ← norm_toComplex]
  rfl

noncomputable def angle (a b : Vec ℝ) : ℝ :=
  InnerProductGeometry.angle a.toComplex b.toComplex

/-- The angle between two vectors is the arc cosine of their product by the lengths. -/
theorem angle_eq (a b : Vec ℝ) : a.angle b = Real.arccos (a.dot b / (a.norm * b.norm)) := by
  rw [angle, InnerProductGeometry.angle, Complex.inner, norm_toComplex, norm_toComplex]
  congr 2
  rw [Complex.mul_re, Complex.conj_re, Complex.conj_im, dot_eq]
  simp only [toComplex_re, toComplex_im]
  ring

-- ---------------------------------------------------------------------------
-- Directions
-- ---------------------------------------------------------------------------

noncomputable def unit (θ : ℝ) : Vec ℝ := ⟨Real.cos θ, Real.sin θ⟩

/-- Angles that differ by whole turns have one direction. -/
theorem unit_congr {θ φ : ℝ} (h : θ ≡ φ [PMOD 2 * Real.pi]) : unit θ = unit φ := by
  obtain ⟨z, rfl⟩ := AddCommGroup.modEq_iff_eq_add_zsmul.mp h
  rw [unit, unit, zsmul_eq_mul, Real.cos_add_int_mul_two_pi, Real.sin_add_int_mul_two_pi]

/-- A vector is its length in its direction. -/
theorem norm_mul_unit (a : Vec ℝ) : a.norm * unit (Complex.arg a.toComplex) = a := by
  rw [← norm_toComplex]
  exact Vec.ext (Complex.norm_mul_cos_arg a.toComplex) (Complex.norm_mul_sin_arg a.toComplex)

end Vec

end Sailbot.Lib
