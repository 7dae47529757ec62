import Mathlib.Analysis.Calculus.Deriv.Abs
import Mathlib.Analysis.SpecialFunctions.ExpDeriv
import Sailbot.Control.TurnCost
import Sailbot.Lib.Heading

/-!
# Derivatives of the parts of a cost

`TurnCost`, `StraightLineCost` and `CrossFinishCost` (`control/line_plan.cc`) in exact
arithmetic: the derivatives that they report are those of their costs, along any curves of
headings and lengths, where none of their angles is at a boundary.

* `OffBranch`, `TurnRegular`, `LineRegular` — no angle is at a boundary.
* `turnCost_hasDerivAt`, `straightLineCost_hasDerivAt`, `crossFinishCost_hasDerivAt` — the parts.
-/

namespace Sailbot.Control

open Lib Real Filter Topology
open Lib.Arith (lit litf)

-- ---------------------------------------------------------------------------
-- Angles
-- ---------------------------------------------------------------------------

/-- The angles where `norm_angle` does not jump. -/
def OffBranch (a : ℝ) : Prop := ∀ k : ℤ, a ≠ (2 * k + 1) * π

/-- An angle off the branch cut is less than half a turn. -/
theorem OffBranch.abs_normAngle_lt {a : ℝ} (h : OffBranch a) : |Util.normAngle a| < π := by
  refine lt_of_le_of_ne (Util.abs_normAngle_le a) ?_
  intro hHalf
  obtain ⟨z, hz⟩ := AddCommGroup.modEq_iff_eq_add_zsmul.mp (Util.normAngle_modEq a)
  rw [zsmul_eq_mul] at hz
  rcases eq_or_eq_neg_of_abs_eq hHalf with hPlus | hMinus
  · refine h z ?_
    rw [hz, hPlus]
    ring
  · refine h (z - 1) ?_
    rw [hz, hMinus]
    push_cast
    ring

/-- A normalised angle has the derivative of the angle, also where the angle itself jumps by a
whole turn. -/
theorem OffBranch.hasDerivAt {f : ℝ → ℝ} {f' t : ℝ} (hf : HasDerivModAt (2 * π) f f' t)
    (h : OffBranch (f t)) : HasDerivAt (fun u => Util.normAngle (f u)) f' t := by
  obtain ⟨lift, hLift, hAt, hMod⟩ := hf
  have hNear : HasDerivAt (fun u => Util.normAngle (f t) + (lift u - lift t)) f' t :=
    (hLift.sub_const (lift t)).const_add _
  have hInside : ∀ᶠ u in 𝓝 t, |Util.normAngle (f t) + (lift u - lift t)| < π := by
    refine hNear.continuousAt.abs.eventually_lt_const ?_
    show |Util.normAngle (f t) + (lift t - lift t)| < π
    rw [sub_self, add_zero]
    exact h.abs_normAngle_lt
  refine hNear.congr_of_eventuallyEq ?_
  filter_upwards [hInside, hMod] with u hInside hMod
  refine Util.normAngle_eq ?_ hInside
  have hShift := (Util.normAngle_modEq (f t)).add_right (lift u - lift t)
  rw [← hAt, add_sub_cancel] at hShift
  rw [← hAt]
  exact hShift.trans hMod.symm

-- ---------------------------------------------------------------------------
-- Turns
-- ---------------------------------------------------------------------------

namespace LineCost

/-- Near a point where `f` is not zero, it keeps its sign. -/
theorem eventually_neg_iff {f : ℝ → ℝ} {t : ℝ} (hf : ContinuousAt f t) (hNe : f t ≠ 0) :
    ∀ᶠ u in 𝓝 t, (f u < 0 ↔ f t < 0) := by
  rcases lt_or_gt_of_ne hNe with hNeg | hPos
  · filter_upwards [hf.eventually_lt_const hNeg] with u hu
    exact iff_of_true hu hNeg
  · filter_upwards [hf.eventually_const_lt hPos] with u hu
    exact iff_of_false hu.not_gt hPos.not_gt

variable {E P N : ℝ → ℝ} {s' e' side t : ℝ}

/-- The derivative of a square with its weight. -/
theorem square_hasDerivAt {B : ℝ → ℝ} {B' t : ℝ} (hB : HasDerivAt B B' t) :
    HasDerivAt (fun u => kTurnCost * B u * B u) (2 * kTurnCost * B' * B t) t := by
  refine ((hB.const_mul (kTurnCost : ℝ)).mul hB).congr_deriv ?_
  ring

/-- The derivatives after mirroring: every branch is a square, and near to a point that is at no
boundary the branch stays the same. -/
theorem mirroredCost_hasDerivAt (hE : HasDerivAt E (side * (e' - s')) t)
    (hP : HasDerivAt P (-(side * s')) t) (hN : HasDerivAt N (-(side * s')) t) (hPZero : P t ≠ 0)
    (hNZero : N t ≠ 0) (hPEnd : P t ≠ E t) (hNEnd : N t ≠ E t) :
    HasDerivAt (fun u => (mirroredCost side (E u) (P u) (N u)).cost)
      ((mirroredCost side (E t) (P t) (N t)).d1 * s' +
        (mirroredCost side (E t) (P t) (N t)).d2 * e') t := by
  have hSignP := eventually_neg_iff hP.continuousAt hPZero
  have hSignN := eventually_neg_iff hN.continuousAt hNZero
  have hOrderN := eventually_neg_iff (hE.sub hN).continuousAt (sub_ne_zero.mpr hNEnd.symm)
  have hOrderP := eventually_neg_iff (hE.sub hP).continuousAt (sub_ne_zero.mpr hPEnd.symm)
  simp only [Pi.sub_apply, sub_neg] at hOrderN hOrderP
  by_cases hAway : (P t < 0 ∧ N t < 0) ∨ E t < N t
  · have hNear : (fun u => (mirroredCost side (E u) (P u) (N u)).cost) =ᶠ[𝓝 t]
        fun u => kTurnCost * E u * E u := by
      filter_upwards [hSignP, hSignN, hOrderN] with u hSignP hSignN hOrderN
      rw [← hSignP, ← hSignN, ← hOrderN] at hAway
      rw [mirroredCost, if_pos hAway]
    refine ((square_hasDerivAt hE).congr_of_eventuallyEq hNear).congr_deriv ?_
    rw [mirroredCost, if_pos hAway]
    dsimp only
    ring
  · obtain ⟨start, hStartEq⟩ : ∃ start, start = fun u => if N t < 0 then 0 else N u := ⟨_, rfl⟩
    obtain ⟨stop, hStopEq⟩ : ∃ stop, stop = fun u => if E t < P t ∨ P t < 0 then E u else P u :=
      ⟨_, rfl⟩
    have hStart : HasDerivAt start (if N t < 0 then 0 else -(side * s')) t := by
      rw [hStartEq]
      split
      · exact hasDerivAt_const t 0
      · exact hN
    have hStop : HasDerivAt stop
        (if E t < P t ∨ P t < 0 then side * (e' - s') else -(side * s')) t := by
      rw [hStopEq]
      split
      · exact hE
      · exact hP
    have hNear : (fun u => (mirroredCost side (E u) (P u) (N u)).cost) =ᶠ[𝓝 t] fun u =>
        kTurnCost * (E u + (kTackCost - 1) * (stop u - start u)) *
          (E u + (kTackCost - 1) * (stop u - start u)) := by
      filter_upwards [hSignP, hSignN, hOrderN, hOrderP] with u hSignP hSignN hOrderN hOrderP
      rw [← hSignP, ← hSignN, ← hOrderN] at hAway
      rw [mirroredCost, if_neg hAway, hStartEq, hStopEq]
      simp only [hSignP, hSignN, hOrderP]
    have hBase : HasDerivAt (fun u => E u + (kTackCost - 1) * (stop u - start u)) _ t :=
      hE.add ((hStop.sub hStart).const_mul (kTackCost - 1 : ℝ))
    refine ((square_hasDerivAt hBase).congr_of_eventuallyEq hNear).congr_deriv ?_
    rw [mirroredCost, if_neg hAway, hStartEq, hStopEq]
    dsimp only
    -- whether the start and the end of the turn are in the no-go zone
    by_cases hClipStart : N t < 0 <;> by_cases hClipEnd : E t < P t ∨ P t < 0 <;>
      simp only [hClipStart, hClipEnd, if_true, if_false] <;> ring

/-- No angle of `TurnCost` is at a boundary of `norm_angle`, and the edges of the no-go zone are
neither at the start nor at the end of the turn. Where the turn changes its side, at `endnorm`
zero, the cost has a derivative. -/
structure TurnRegular (startheading endheading winddir : ℝ) : Prop where
  turn        : OffBranch (endheading - startheading)
  edge_abs    : ∀ side ∈ ({1, -1} : Set ℝ), OffBranch (π + winddir + side * (π / 4))
  edge        : ∀ side ∈ ({1, -1} : Set ℝ),
    OffBranch (Util.normAngle (π + winddir + side * (π / 4)) - startheading)
  edge_ne     : ∀ side ∈ ({1, -1} : Set ℝ), nogoEdge startheading winddir side ≠ 0
  edge_ne_end : ∀ side ∈ ({1, -1} : Set ℝ),
    nogoEdge startheading winddir side ≠ Util.normAngle (endheading - startheading)

section Turn

variable {start stop : ℝ → ℝ} {winddir : ℝ}

/-- Where there is no turn, the code's derivatives are zero. -/
theorem mirroredCost_zero (side plusnogonorm negnogonorm : ℝ) :
    (mirroredCost side 0 plusnogonorm negnogonorm).d1 = 0 ∧
      (mirroredCost side 0 plusnogonorm negnogonorm).d2 = 0 := by
  unfold mirroredCost
  split
  · constructor <;> simp
  · rename_i hThrough
    have hStart : (if negnogonorm < 0 then 0 else negnogonorm) = 0 := by grind
    have hStop : (if 0 < plusnogonorm ∨ plusnogonorm < 0 then 0 else plusnogonorm) = 0 := by grind
    rw [hStart, hStop]
    constructor <;> simp

/-- The weight of a tack. -/
theorem kTackCost_real : (kTackCost : ℝ) = 5 := by
  show ((5 : ℚ) : ℝ) = 5
  norm_num

/-- The weight of a turn. -/
theorem kTurnCost_real : (kTurnCost : ℝ) = 3 / 10 := by
  show ((3 / 10 : ℚ) : ℝ) = 3 / 10
  norm_num

/-- The cost is at most that of the same turn in the no-go zone. -/
theorem turnCost_le {startheading endheading : ℝ}
    (hHalf : |Util.normAngle (endheading - startheading)| < π) :
    |(turnCost startheading endheading winddir).cost| ≤
      kTurnCost * kTackCost ^ 2 * Util.normAngle (endheading - startheading) ^ 2 := by
  obtain ⟨side, endnorm, plusnogonorm, negnogonorm, hTurn, hCost⟩ :=
    turnCost_turn winddir hHalf
  obtain ⟨m, hm⟩ :
    ∃ m, m = max 0 (min endnorm (negnogonorm + π / 2) - max 0 negnogonorm) := ⟨_, rfl⟩
  have hNonneg := hTurn.nonneg
  have hLow : 0 ≤ m := hm ▸ le_max_left _ _
  have hHigh : m ≤ endnorm := by grind
  have hSide : side ^ 2 = 1 := by
    rcases hTurn.side_eq with rfl | rfl <;> norm_num
  rw [hCost, hTurn.cost_eq, ← hm, hTurn.normAngle_eq, mul_pow, hSide, kTackCost_real,
    kTurnCost_real, abs_of_nonneg (by positivity)]
  have hBase : (endnorm + (5 - 1) * m) ^ 2 ≤ (5 * endnorm) ^ 2 := by
    gcongr
    linarith
  linarith

/-- The derivatives of `TurnCost`. -/
theorem turnCost_hasDerivAt (hStart : HasDerivModAt (2 * π) start s' t)
    (hStop : HasDerivModAt (2 * π) stop e' t) (hRegular : TurnRegular (start t) (stop t) winddir) :
    HasDerivAt (fun u => (turnCost (start u) (stop u) winddir).cost)
      ((turnCost (start t) (stop t) winddir).d1 * s' +
        (turnCost (start t) (stop t) winddir).d2 * e') t := by
  have hTurn : HasDerivAt (fun u => Util.normAngle (stop u - start u)) (e' - s') t :=
    hRegular.turn.hasDerivAt (hStop.sub hStart)
  have hEdge : ∀ side ∈ ({1, -1} : Set ℝ),
      HasDerivAt (fun u => nogoEdge (start u) winddir side) (-s') t := by
    intro side hSide
    have hConst := HasDerivModAt.const (2 * π)
      (Util.normAngle (π + winddir + side * (π / 4))) t
    rw [← zero_sub]
    exact (hRegular.edge side hSide).hasDerivAt (hConst.sub hStart)
  by_cases hNone : Util.normAngle (stop t - start t) = 0
  · -- where there is no turn, the cost is bounded by the square of the turn
    have hInside : ∀ᶠ u in 𝓝 t, |Util.normAngle (stop u - start u)| < π :=
      hTurn.continuousAt.abs.eventually_lt_const hRegular.turn.abs_normAngle_lt
    have hZero : HasDerivAt (fun u => (turnCost (start u) (stop u) winddir).cost) 0 t :=
      hasDerivAt_zero_of_sq hTurn hNone (hInside.mono fun u hu => turnCost_le hu)
    refine hZero.congr_deriv ?_
    rw [turnCost_mirrored, if_neg hNone.not_lt, hNone, (mirroredCost_zero _ _ _).1,
      (mirroredCost_zero _ _ _).2, zero_mul, zero_mul, add_zero]
  · -- elsewhere the turn keeps its side near `t`, and the cost is that of its mirror image
    obtain ⟨side, hSide, hPos⟩ : ∃ side : ℝ, (side = 1 ∨ side = -1) ∧
        0 < side * Util.normAngle (stop t - start t) := by
      rcases lt_or_gt_of_ne hNone with hRight | hLeft
      · exact ⟨-1, .inr rfl, by linarith⟩
      · exact ⟨1, .inl rfl, by linarith⟩
    have hOther : side ∈ ({1, -1} : Set ℝ) ∧ -side ∈ ({1, -1} : Set ℝ) := by
      rcases hSide with rfl | rfl <;> simp
    have hSideNe : side ≠ 0 := left_ne_zero_of_mul hPos.ne'
    have hNear : (fun u => (turnCost (start u) (stop u) winddir).cost) =ᶠ[𝓝 t] fun u =>
        (mirroredCost side (side * Util.normAngle (stop u - start u))
          (side * nogoEdge (start u) winddir side)
          (side * nogoEdge (start u) winddir (-side))).cost := by
      filter_upwards [(hTurn.const_mul side).continuousAt.eventually_const_lt hPos] with u hu
      rw [turnCost_sided winddir hSide hu]
    have hEdgeTo (edge : ℝ) (h : edge ∈ ({1, -1} : Set ℝ)) :
        HasDerivAt (fun u => side * nogoEdge (start u) winddir edge) (-(side * s')) t :=
      ((hEdge edge h).const_mul side).congr_deriv (mul_neg _ _)
    have hMirrored := mirroredCost_hasDerivAt (hTurn.const_mul side) (hEdgeTo side hOther.1)
      (hEdgeTo (-side) hOther.2) (mul_ne_zero hSideNe (hRegular.edge_ne _ hOther.1))
      (mul_ne_zero hSideNe (hRegular.edge_ne _ hOther.2))
      ((mul_right_injective₀ hSideNe).ne (hRegular.edge_ne_end _ hOther.1))
      ((mul_right_injective₀ hSideNe).ne (hRegular.edge_ne_end _ hOther.2))
    rw [turnCost_sided winddir hSide hPos]
    exact hMirrored.congr_of_eventuallyEq hNear

end Turn

-- ---------------------------------------------------------------------------
-- Lines
-- ---------------------------------------------------------------------------

/-- No angle of `StraightLineCost` is at a boundary. -/
structure LineRegular (heading winddir : ℝ) : Prop where
  norm  : OffBranch (winddir + π - heading)
  ne    : Util.normAngle (winddir + π - heading) ≠ 0
  max_ne : |Util.normAngle (winddir + π - heading)| ≠ 9 / 10

/-- `kUp` of `StraightLineCost`. -/
noncomputable def upwindWeight (isReal : Bool) : ℝ :=
  if isReal then kUpwindCost else kUpwindApproxCost

/-- `StraightLineCost` with the clipped angle. -/
noncomputable def clippedCost (len upwindness headingsign : ℝ) (isReal : Bool) : Cost2 ℝ :=
  let upwindexp := exp (10 * (upwindness - π / 6))
  let upwindscalar := upwindWeight isReal / (1 + upwindexp)
  { cost := upwindscalar * kLengthCost * len
    d1 := upwindscalar * kLengthCost
    d2 := if upwindness = 9 / 10 ∨ upwindness = 0 then 0
      else kLengthCost * len * (-upwindscalar / (1 + upwindexp) * (-10 * upwindexp * headingsign)) }

/-- The cost of a line, by its angle to the wind up to a limit. -/
theorem straightLineCost_clipped (len heading winddir : ℝ) (isReal : Bool) :
    (straightLineCost len heading winddir isReal).1 =
      clippedCost len (min |Util.normAngle (winddir + π - heading)| (9 / 10))
        (Util.sign (Util.normAngle (winddir + π - heading))) isReal := by
  have hZero : (lit 0 : ℝ) = 0 := by simp
  have hOne : (lit 1 : ℝ) = 1 := by simp
  have hTen : (lit 10 : ℝ) = 10 := by simp
  have hSix : (lit 6 : ℝ) = 6 := by simp
  have hMinusTen : (lit (-10) : ℝ) = -10 := by simp
  have hMax : (lit (9 / 10) : ℝ) = 9 / 10 := by simp
  have hPi : (Arith.mPi : ℝ) = π := rfl
  have hClip : Util.clip |Util.normAngle (winddir + π - heading)| 0 (9 / 10) =
      min |Util.normAngle (winddir + π - heading)| (9 / 10) := by
    rw [Util.clip, Arith.min_real, Arith.max_real]
    exact max_eq_left (le_min (abs_nonneg _) (by norm_num))
  unfold straightLineCost
  simp only [hZero, hOne, hTen, hSix, hMinusTen, hMax, hPi, Arith.abs_real, hClip,
    Bool.or_eq_true, Arith.eq_real]
  rfl

/-- The sign over the real numbers. -/
theorem sign_real (a : ℝ) : Util.sign a = (SignType.sign a : ℝ) := by
  show (((if Arith.lt (lit 0) a then 1 else 0) -
    (if Arith.lt a (lit 0) then 1 else 0) : ℚ) : ℝ) = _
  simp only [Arith.lt_real, Arith.lit_real, Rat.cast_zero]
  rcases lt_trichotomy a 0 with h | rfl | h
  · simp [h, h.not_gt]
  · simp
  · simp [h, h.not_gt]

section Line

variable {len up heading : ℝ → ℝ} {len' up' heading' winddir : ℝ}

/-- The cost of a line as a product, by the chain rule. -/
theorem upwind_hasDerivAt (hLen : HasDerivAt len len' t) (hUp : HasDerivAt up up' t) (w : ℝ) :
    HasDerivAt (fun u => w / (1 + exp (10 * (up u - π / 6))) * kLengthCost * len u)
      (w / (1 + exp (10 * (up t - π / 6))) * kLengthCost * len' +
        kLengthCost * len t * (-(w / (1 + exp (10 * (up t - π / 6)))) /
          (1 + exp (10 * (up t - π / 6))) * (10 * exp (10 * (up t - π / 6)) * up'))) t := by
  have hPos : 1 + exp (10 * (up t - π / 6)) ≠ 0 := by positivity
  have hExp : HasDerivAt (fun u => 1 + exp (10 * (up u - π / 6)))
      (exp (10 * (up t - π / 6)) * (10 * up')) t :=
    ((hUp.sub_const (π / 6)).const_mul 10).exp.const_add 1
  have hScalar : HasDerivAt (fun u => w / (1 + exp (10 * (up u - π / 6))))
      (-(w * (exp (10 * (up t - π / 6)) * (10 * up'))) /
        (1 + exp (10 * (up t - π / 6))) ^ 2) t := by
    refine ((hasDerivAt_const t w).div hExp hPos).congr_deriv ?_
    ring
  refine ((hScalar.mul_const (kLengthCost : ℝ)).mul hLen).congr_deriv ?_
  field_simp
  ring

/-- The derivatives of `StraightLineCost`. -/
theorem straightLineCost_hasDerivAt (hLen : HasDerivAt len len' t)
    (hHeading : HasDerivModAt (2 * π) heading heading' t)
    (hRegular : LineRegular (heading t) winddir) (isReal : Bool) :
    HasDerivAt (fun u => (straightLineCost (len u) (heading u) winddir isReal).1.cost)
      ((straightLineCost (len t) (heading t) winddir isReal).1.d1 * len' +
        (straightLineCost (len t) (heading t) winddir isReal).1.d2 * heading') t := by
  have hNorm : HasDerivAt (fun u => Util.normAngle (winddir + π - heading u)) (0 - heading') t :=
    hRegular.norm.hasDerivAt ((HasDerivModAt.const (2 * π) (winddir + π) t).sub hHeading)
  have hCont := hNorm.continuousAt.abs
  simp only [straightLineCost_clipped]
  rcases lt_or_gt_of_ne hRegular.max_ne with hUpwind | hAway
  · have hAbs := (hasDerivAt_abs hRegular.ne).comp t hNorm
    simp only [Function.comp_def] at hAbs
    have hNear : (fun u => (clippedCost (len u) (min |Util.normAngle (winddir + π - heading u)|
          (9 / 10)) (Util.sign (Util.normAngle (winddir + π - heading u))) isReal).cost) =ᶠ[𝓝 t]
        fun u => upwindWeight isReal / (1 + exp (10 * (|Util.normAngle (winddir + π - heading u)| -
          π / 6))) * kLengthCost * len u := by
      filter_upwards [hCont.eventually_lt_const hUpwind] with u hu
      rw [min_eq_left (le_of_lt hu)]
      rfl
    refine ((upwind_hasDerivAt hLen hAbs _).congr_of_eventuallyEq hNear).congr_deriv ?_
    rw [min_eq_left hUpwind.le, clippedCost, sign_real]
    dsimp only
    rw [if_neg (not_or.mpr ⟨hRegular.max_ne, abs_ne_zero.mpr hRegular.ne⟩)]
    ring
  · have hNear : (fun u => (clippedCost (len u) (min |Util.normAngle (winddir + π - heading u)|
          (9 / 10)) (Util.sign (Util.normAngle (winddir + π - heading u))) isReal).cost) =ᶠ[𝓝 t]
        fun u => upwindWeight isReal / (1 + exp (10 * (9 / 10 - π / 6))) * kLengthCost * len u := by
      filter_upwards [hCont.eventually_const_lt hAway] with u hu
      rw [min_eq_right (le_of_lt hu)]
      rfl
    refine ((upwind_hasDerivAt hLen (hasDerivAt_const t (9 / 10)) _).congr_of_eventuallyEq
      hNear).congr_deriv ?_
    rw [min_eq_right hAway.le, clippedCost]
    dsimp only
    rw [if_pos (Or.inl rfl)]
    ring

end Line

-- ---------------------------------------------------------------------------
-- The finish line
-- ---------------------------------------------------------------------------

/-- The cost of the place on a gate, away from its ends. -/
theorem crossFinishCost_real {alpha : ℝ} (h : 1 / 10 < alpha) :
    crossFinishCost alpha =
      (kAlphaCrossCost * exp alpha / √alpha,
        kAlphaCrossCost * exp alpha / √alpha * (1 - 1 / 2 / alpha)) := by
  have hOne : (lit 1 : ℝ) = 1 := by simp
  have hHalf : (lit (1 / 2) : ℝ) = 1 / 2 := by simp
  have hMax : Arith.max (lit (1 / 10)) alpha = alpha := by
    rw [Arith.max_real]
    exact max_eq_right (by simpa using h.le)
  unfold crossFinishCost
  simp only [hOne, hHalf, hMax]
  rfl

/-- The derivative of `CrossFinishCost`. -/
theorem crossFinishCost_hasDerivAt {alpha : ℝ} (h : 1 / 10 < alpha) :
    HasDerivAt (fun a => (crossFinishCost a).1) (crossFinishCost alpha).2 alpha := by
  have hPos : 0 < alpha := by linarith
  have hSqrt : √alpha ^ 2 = alpha := sq_sqrt hPos.le
  have hSqrtPos : 0 < √alpha := sqrt_pos.mpr hPos
  have hNear : (fun a => (crossFinishCost a).1) =ᶠ[𝓝 alpha]
      fun a => kAlphaCrossCost * exp a / √a := by
    filter_upwards [lt_mem_nhds h] with a ha
    rw [crossFinishCost_real ha]
  have hQuotient := ((hasDerivAt_exp alpha).const_mul (kAlphaCrossCost : ℝ)).div
    (hasDerivAt_sqrt hPos.ne') hSqrtPos.ne'
  refine (hQuotient.congr_of_eventuallyEq hNear).congr_deriv ?_
  rw [crossFinishCost_real h]
  dsimp only
  rw [hSqrt]
  field_simp
  rw [hSqrt]
  ring

end LineCost

end Sailbot.Control
