import Mathlib.Analysis.SpecialFunctions.Complex.LogDeriv
import Mathlib.Analysis.SpecialFunctions.Sqrt
import Sailbot.Lib.Plane

/-!
# Derivatives of lengths and directions

Along a curve in the plane. The direction of a vector jumps by a whole turn on the negative
x-axis, and has its derivative there as well, up to the jump.

* `HasVelocityAt`     — the derivative of a curve.
* `HasDerivModAt`     — a derivative up to jumps by a period.
* `HasVelocityAt.arg` — the derivative of the direction.
-/

namespace Sailbot.Lib

open Filter Topology

-- ---------------------------------------------------------------------------
-- Derivatives up to jumps
-- ---------------------------------------------------------------------------

/-- A function that is bounded by the square of a function that has a derivative and a zero. -/
theorem hasDerivAt_zero_of_sq {f g : ℝ → ℝ} {g' c x : ℝ} (hg : HasDerivAt g g' x) (hZero : g x = 0)
    (hf : ∀ᶠ t in 𝓝 x, |f t| ≤ c * g t ^ 2) : HasDerivAt f 0 x := by
  have hAt : f x = 0 := by
    have := hf.self_of_nhds
    rw [hZero, zero_pow two_ne_zero, mul_zero] at this
    exact abs_nonpos_iff.mp this
  have hLinear : g =O[𝓝 x] fun t => t - x := by
    simpa only [hZero, sub_zero] using hg.isBigO_sub
  have hSquare : f =O[𝓝 x] fun t => g t ^ 2 := by
    refine Asymptotics.IsBigO.of_bound c ?_
    filter_upwards [hf] with t ht
    rwa [Real.norm_eq_abs, Real.norm_of_nonneg (sq_nonneg (g t))]
  rw [hasDerivAt_iff_isLittleO]
  simp only [hAt, sub_zero, smul_zero]
  refine (hSquare.trans (hLinear.pow 2)).trans_isLittleO ?_
  simpa using Asymptotics.isLittleO_pow_sub_sub x one_lt_two

/-- `f'` is the derivative at `x` of a function that differs from `f` by multiples of `p`, and
not at `x`. -/
def HasDerivModAt (p : ℝ) (f : ℝ → ℝ) (f' x : ℝ) : Prop :=
  ∃ g : ℝ → ℝ, HasDerivAt g f' x ∧ g x = f x ∧ ∀ᶠ t in 𝓝 x, f t ≡ g t [PMOD p]

namespace HasDerivModAt

variable {p : ℝ} {f g : ℝ → ℝ} {f' x : ℝ}

theorem const (p c x : ℝ) : HasDerivModAt p (fun _ => c) 0 x :=
  ⟨fun _ => c, hasDerivAt_const x c, rfl, Eventually.of_forall fun _ => AddCommGroup.modEq_rfl⟩

theorem sub {g' : ℝ} (hf : HasDerivModAt p f f' x) (hg : HasDerivModAt p g g' x) :
    HasDerivModAt p (fun t => f t - g t) (f' - g') x := by
  obtain ⟨liftF, hLiftF, hAtF, hModF⟩ := hf
  obtain ⟨liftG, hLiftG, hAtG, hModG⟩ := hg
  refine ⟨fun t => liftF t - liftG t, hLiftF.sub hLiftG, congrArg₂ (· - ·) hAtF hAtG, ?_⟩
  filter_upwards [hModF, hModG] with t hModF hModG
  exact hModF.sub hModG

theorem congr_of_eventuallyEq (h : HasDerivModAt p f f' x) (hEq : g =ᶠ[𝓝 x] f) :
    HasDerivModAt p g f' x := by
  obtain ⟨lift, hLift, hAt, hMod⟩ := h
  refine ⟨lift, hLift, hAt.trans hEq.self_of_nhds.symm, ?_⟩
  filter_upwards [hMod, hEq] with t hMod hEq
  rwa [hEq]

end HasDerivModAt

-- ---------------------------------------------------------------------------
-- Curves
-- ---------------------------------------------------------------------------

structure HasVelocityAt (z : ℝ → Vec ℝ) (v : Vec ℝ) (t : ℝ) : Prop where
  x : HasDerivAt (fun s => (z s).x) v.x t
  y : HasDerivAt (fun s => (z s).y) v.y t

namespace HasVelocityAt

variable {z : ℝ → Vec ℝ} {v : Vec ℝ} {t : ℝ}

theorem toComplex (h : HasVelocityAt z v t) :
    HasDerivAt (fun s => (z s).toComplex) v.toComplex t := by
  have hSum := h.x.ofReal_comp.add (h.y.ofReal_comp.mul_const Complex.I)
  have hValue : ∀ a : Vec ℝ, (a.x : ℂ) + a.y * Complex.I = a.toComplex :=
    fun a => Complex.mk_eq_add_mul_I a.x a.y ▸ rfl
  rw [hValue] at hSum
  refine hSum.congr_of_eventuallyEq (Eventually.of_forall ?_)
  intro s
  exact (hValue (z s)).symm

/-- The derivative of the length. -/
theorem norm (h : HasVelocityAt z v t) (hNe : (z t).norm ≠ 0) :
    HasDerivAt (fun s => (z s).norm) ((z t).dot v / (z t).norm) t := by
  have hSquare : HasDerivAt (fun s => (z s).x ^ 2 + (z s).y ^ 2)
      (2 * (z t).x * v.x + 2 * (z t).y * v.y) t := by
    refine ((h.x.pow 2).add (h.y.pow 2)).congr_deriv ?_
    push_cast
    ring
  have hPos : (z t).x ^ 2 + (z t).y ^ 2 ≠ 0 := by
    rw [← Vec.norm_sq]
    exact pow_ne_zero 2 hNe
  have hSqrt := hSquare.sqrt hPos
  simp only [← Vec.norm_eq] at hSqrt
  refine hSqrt.congr_deriv ?_
  rw [Vec.dot_eq]
  field_simp

/-- Directions add up, up to whole turns. -/
theorem arg_mul_modEq {a b : ℂ} (ha : a ≠ 0) (hb : b ≠ 0) :
    (a * b).arg ≡ a.arg + b.arg [PMOD 2 * Real.pi] := by
  have hAngle := Complex.arg_mul_coe_angle ha hb
  rw [← Real.Angle.coe_add, Real.Angle.angle_eq_iff_two_pi_dvd_sub] at hAngle
  obtain ⟨k, hk⟩ := hAngle
  rw [AddCommGroup.modEq_iff_eq_add_zsmul]
  exact ⟨-k, by rw [zsmul_eq_mul]; push_cast; linarith⟩

/-- The derivative of the direction: the direction of the quotient by the vector at `t` has no
jump near to `t`. -/
theorem arg (h : HasVelocityAt z v t) (hNe : (z t).norm ≠ 0) :
    HasDerivModAt (2 * Real.pi) (fun s => Complex.arg (z s).toComplex)
      ((z t).cross v / ((z t).x ^ 2 + (z t).y ^ 2)) t := by
  have hZero : (z t).toComplex ≠ 0 := by
    rw [← norm_ne_zero_iff, Vec.norm_toComplex]
    exact hNe
  have hOne : (z t).toComplex / (z t).toComplex = 1 := div_self hZero
  have hLog := (h.toComplex.div_const (z t).toComplex).clog_real
    (by rw [hOne]; exact Complex.one_mem_slitPlane)
  have hArg : HasDerivAt (fun s => Complex.arg ((z s).toComplex / (z t).toComplex))
      (v.toComplex / (z t).toComplex).im t := by
    have hIm := Complex.imCLM.hasFDerivAt.comp_hasDerivAt t hLog
    rw [hOne, div_one] at hIm
    refine hIm.congr_of_eventuallyEq (Eventually.of_forall ?_)
    intro s
    exact (Complex.log_im _).symm
  have hCross : (v.toComplex / (z t).toComplex).im =
      (z t).cross v / ((z t).x ^ 2 + (z t).y ^ 2) := by
    rw [Complex.div_im, Complex.normSq_apply, Vec.cross]
    simp only [Vec.toComplex_re, Vec.toComplex_im]
    ring
  refine ⟨fun s => Complex.arg (z t).toComplex +
    Complex.arg ((z s).toComplex / (z t).toComplex), hCross ▸ hArg.const_add _, ?_, ?_⟩
  · show Complex.arg _ + Complex.arg ((z t).toComplex / (z t).toComplex) = _
    rw [hOne, Complex.arg_one, add_zero]
  · filter_upwards [h.toComplex.continuousAt.eventually_ne hZero] with s hs
    have hMul := arg_mul_modEq hZero (div_ne_zero hs hZero)
    rwa [mul_div_cancel₀ _ hZero] at hMul

end HasVelocityAt

end Sailbot.Lib
