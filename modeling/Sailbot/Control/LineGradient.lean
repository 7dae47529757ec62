import Sailbot.Control.CostGradient

/-!
# Derivatives of the costs of lines

`SingleLineCost` and `LinePairCost` (`control/line_plan.cc`) without obstacles, in exact
arithmetic: the derivatives that the planner descends.

* `linePairCost_hasDerivAt`   — along any curve of turning points.
* `singleLineCost_hasDerivAt` — along the finish line, unless the next leg is just as long as
  the shortest one that is not ignored.
* `singleLineCost_jumps`      — there, the cost jumps by that of the turn.
-/

namespace Sailbot.Control.LineCost

open Lib Real Filter Topology
open Lib.Arith (lit litf)

-- ---------------------------------------------------------------------------
-- Legs
-- ---------------------------------------------------------------------------

/-- The direction of a leg. -/
noncomputable def heading (leg : Vec ℝ) : ℝ := Complex.arg leg.toComplex

/-- What `atan2` computes of a leg is its heading. -/
theorem heading_eq (leg : Vec ℝ) : Arith.atan2 leg.y leg.x = heading leg := rfl

section Legs

variable {a v : Vec ℝ} {leg : ℝ → Vec ℝ} {t : ℝ}

/-- How fast the length of a leg grows when its end moves by `v`. -/
theorem dnorm_real (hNe : a.norm ≠ 0) : dnorm a v = a.dot v / a.norm := by
  have hPos : 0 < a.squaredNorm := by
    rw [Vec.squaredNorm_eq, ← Vec.norm_sq]
    exact lt_of_le_of_ne (sq_nonneg _) (pow_ne_zero 2 hNe).symm
  have hNormalized : a.normalized = a / a.norm := by
    unfold Vec.normalized
    rw [if_pos (by simpa using hPos)]
    rfl
  rw [dnorm, hNormalized, Vec.dot_eq, Vec.dot_eq, Vec.div_x, Vec.div_y]
  ring

/-- How fast the heading of a leg turns when its end moves by `v`. -/
theorem datan_real : datan a v = a.cross v / (a.x ^ 2 + a.y ^ 2) := by
  unfold datan
  rw [Vec.squaredNorm_eq, Vec.dot_eq, Vec.cross, Vec.div_x, Vec.div_y]
  ring

/-- The length of a leg whose end moves has the derivative that the code computes. -/
theorem norm_hasDerivAt (hLeg : HasVelocityAt leg v t) (hNe : (leg t).norm ≠ 0) :
    HasDerivAt (fun u => (leg u).norm) (dnorm (leg t) v) t := by
  rw [dnorm_real hNe]
  exact hLeg.norm hNe

/-- So has the heading, up to whole turns. -/
theorem heading_hasDerivModAt (hLeg : HasVelocityAt leg v t) (hNe : (leg t).norm ≠ 0) :
    HasDerivModAt (2 * π) (fun u => heading (leg u)) (datan (leg t) v) t := by
  rw [datan_real]
  exact hLeg.arg hNe

end Legs

-- ---------------------------------------------------------------------------
-- Two lines
-- ---------------------------------------------------------------------------

/-- Both lines have a length, and no angle is at a boundary. -/
structure LinePairRegular (startpt endpt turnpt : Vec ℝ) (preheading postheading winddir : ℝ) :
    Prop where
  start_ne : startpt ≠ turnpt
  end_ne   : turnpt ≠ endpt
  first    : LineRegular (heading (turnpt - startpt)) winddir
  second   : LineRegular (heading (endpt - turnpt)) winddir
  preturn  : TurnRegular preheading (heading (turnpt - startpt)) winddir
  turn     : TurnRegular (heading (turnpt - startpt)) (heading (endpt - turnpt)) winddir
  postturn : TurnRegular (heading (endpt - turnpt)) postheading winddir

/-- What `LinePairCost` reports as the cost. -/
theorem linePairCost_cost (startpt endpt turnpt : Vec ℝ)
    (preheading postheading winddir scalePre : ℝ) :
    let sega := turnpt - startpt
    let segb := endpt - turnpt
    (linePairCostFree startpt endpt turnpt preheading postheading winddir scalePre).1 =
      (turnCost preheading (heading sega) winddir).cost * scalePre +
        (turnCost (heading sega) (heading segb) winddir).cost +
        (turnCost (heading segb) postheading winddir).cost +
        (straightLineCost sega.norm (heading sega) winddir true).1.cost +
        (straightLineCost segb.norm (heading segb) winddir true).1.cost := by
  intro sega segb
  have hZero : (lit 0 : ℝ) = 0 := by simp
  unfold linePairCostFree
  dsimp only
  rw [hZero, zero_add]
  rfl

/-- The reported derivative in the direction `v`, by the derivatives of lengths and headings. -/
theorem linePairCost_dot (startpt endpt turnpt v : Vec ℝ)
    (preheading postheading winddir scalePre : ℝ) :
    let sega := turnpt - startpt
    let segb := endpt - turnpt
    let dlena := sega.dot v / sega.norm
    let dlenb := segb.dot (-v) / segb.norm
    let dha := datan sega v
    let dhb := datan segb (-v)
    (linePairCostFree startpt endpt turnpt preheading postheading winddir scalePre).2.1.dot v =
      (turnCost preheading (heading sega) winddir).d2 * dha * scalePre +
        ((turnCost (heading sega) (heading segb) winddir).d1 * dha +
          (turnCost (heading sega) (heading segb) winddir).d2 * dhb) +
        (turnCost (heading segb) postheading winddir).d1 * dhb +
        ((straightLineCost sega.norm (heading sega) winddir true).1.d1 * dlena +
          (straightLineCost sega.norm (heading sega) winddir true).1.d2 * dha) +
        ((straightLineCost segb.norm (heading segb) winddir true).1.d1 * dlenb +
          (straightLineCost segb.norm (heading segb) winddir true).1.d2 * dhb) := by
  intro sega segb dlena dlenb dha dhb
  unfold linePairCostFree
  simp only [heading_eq, Vec.dot_eq, Vec.add_x, Vec.add_y, Vec.mul_x, Vec.mul_y, Vec.smul_x,
    Vec.smul_y, Vec.div_x, Vec.div_y, Vec.neg_x, Vec.neg_y, Vec.zero_x, Vec.zero_y,
    Vec.squaredNorm_eq]
  simp only [dlena, dlenb, dha, dhb, datan_real, Vec.cross, Vec.dot_eq, Vec.neg_x, Vec.neg_y]
  ring

/-- The cost of two lines, along any curve of turning points. -/
theorem linePairCost_hasDerivAt {startpt endpt : Vec ℝ} {z : ℝ → Vec ℝ} {v : Vec ℝ} {t : ℝ}
    {preheading postheading winddir : ℝ} (scalePre : ℝ) (hz : HasVelocityAt z v t)
    (hRegular : LinePairRegular startpt endpt (z t) preheading postheading winddir) :
    HasDerivAt
      (fun u => (linePairCostFree startpt endpt (z u) preheading postheading winddir scalePre).1)
      ((linePairCostFree startpt endpt (z t) preheading postheading winddir scalePre).2.1.dot v)
      t := by
  have hNormA := (Vec.norm_pos hRegular.start_ne).ne'
  have hNormB := (Vec.norm_pos hRegular.end_ne).ne'
  have hSegA : HasVelocityAt (fun u => z u - startpt) v t :=
    ⟨hz.x.sub_const startpt.x, hz.y.sub_const startpt.y⟩
  have hSegB : HasVelocityAt (fun u => endpt - z u) (-v) t :=
    ⟨hz.x.const_sub endpt.x, hz.y.const_sub endpt.y⟩
  have hLenA := hSegA.norm hNormA
  have hLenB := hSegB.norm hNormB
  have hHeadA := heading_hasDerivModAt hSegA hNormA
  have hHeadB := heading_hasDerivModAt hSegB hNormB
  have hPre := (turnCost_hasDerivAt (HasDerivModAt.const _ preheading t) hHeadA
    hRegular.preturn).mul_const scalePre
  have hTurn := turnCost_hasDerivAt hHeadA hHeadB hRegular.turn
  have hPost := turnCost_hasDerivAt hHeadB (HasDerivModAt.const _ postheading t) hRegular.postturn
  have hLineA := straightLineCost_hasDerivAt hLenA hHeadA hRegular.first true
  have hLineB := straightLineCost_hasDerivAt hLenB hHeadB hRegular.second true
  have hSum := (((hPre.add hTurn).add hPost).add hLineA).add hLineB
  refine (hSum.congr_of_eventuallyEq (Eventually.of_forall ?_)).congr_deriv ?_
  · intro u
    exact linePairCost_cost _ _ _ _ _ _ _
  · rw [linePairCost_dot]
    simp only [mul_zero, zero_add, add_zero]

-- ---------------------------------------------------------------------------
-- The last line
-- ---------------------------------------------------------------------------

/-- The point of the finish line. -/
noncomputable def crossing (startline endline : Vec ℝ) (alpha : ℝ) : Vec ℝ :=
  startline + alpha * (endline - startline)

/-- `nextheading`: a next leg of less than 0.1 mm is ignored. -/
noncomputable def nextHeading (firstleg nextleg : Vec ℝ) : ℝ :=
  if nextleg.squaredNorm < 1 / 10 ^ 8 then heading firstleg else heading nextleg

/-- Both legs have a length, and no angle is at a boundary. -/
structure SingleLineRegular (startline endline startpt : Vec ℝ) (alpha preheading : ℝ)
    (nextpt : Vec ℝ) (winddir : ℝ) : Prop where
  start_ne : startpt ≠ crossing startline endline alpha
  next_ne  : crossing startline endline alpha ≠ nextpt
  alpha_gt : 1 / 10 < alpha
  first    : LineRegular (heading (crossing startline endline alpha - startpt)) winddir
  next     : LineRegular (nextHeading (crossing startline endline alpha - startpt)
    (nextpt - crossing startline endline alpha)) winddir
  preturn  : TurnRegular preheading (heading (crossing startline endline alpha - startpt)) winddir
  turn     : TurnRegular (heading (crossing startline endline alpha - startpt))
    (nextHeading (crossing startline endline alpha - startpt)
      (nextpt - crossing startline endline alpha)) winddir

/-- The heading of the next leg and its derivative, as the source chooses them. -/
theorem nextHeading_eq (firstleg nextleg : Vec ℝ) (dfirst dnext : ℝ) :
    (if Arith.lt nextleg.squaredNorm (lit (1 / 10 ^ 8)) then (heading firstleg, dfirst)
      else (heading nextleg, dnext)) =
      (nextHeading firstleg nextleg,
        if nextleg.squaredNorm < 1 / 10 ^ 8 then dfirst else dnext) := by
  have hTiny : Arith.lt nextleg.squaredNorm (lit (1 / 10 ^ 8)) = true ↔
      nextleg.squaredNorm < 1 / 10 ^ 8 := by
    rw [Arith.lt_real, Arith.lit_real]
    norm_num
  rw [nextHeading, if_congr hTiny rfl rfl]
  split <;> rfl

section SingleLine

variable (startline endline startpt : Vec ℝ) (alpha preheading : ℝ) (nextpt : Vec ℝ) (winddir : ℝ)

/-- What `SingleLineCost` reports as the cost. -/
theorem singleLineCost_cost :
    let firstleg := crossing startline endline alpha - startpt
    let nextleg := nextpt - crossing startline endline alpha
    (singleLineCostFree startline endline startpt alpha preheading nextpt winddir).1 =
      (straightLineCost firstleg.norm (heading firstleg) winddir true).1.cost +
        (straightLineCost nextleg.norm (nextHeading firstleg nextleg) winddir false).1.cost +
        ((turnCost (heading firstleg) (nextHeading firstleg nextleg) winddir).cost +
          (turnCost preheading (heading firstleg) winddir).cost) +
        (crossFinishCost alpha).1 := by
  intro firstleg nextleg
  unfold singleLineCostFree
  simp only [heading_eq, nextHeading_eq]
  rfl

/-- What `SingleLineCost` reports as the derivative of the cost. -/
theorem singleLineCost_deriv :
    let firstleg := crossing startline endline alpha - startpt
    let nextleg := nextpt - crossing startline endline alpha
    let dendda := endline - startline
    let dfirst := datan firstleg dendda
    let dnext := if nextleg.squaredNorm < 1 / 10 ^ 8 then dfirst else datan nextleg (-dendda)
    (singleLineCostFree startline endline startpt alpha preheading nextpt winddir).2.1 =
      (straightLineCost firstleg.norm (heading firstleg) winddir true).1.d1 *
          dnorm firstleg dendda +
        (straightLineCost firstleg.norm (heading firstleg) winddir true).1.d2 * dfirst +
        (straightLineCost nextleg.norm (nextHeading firstleg nextleg) winddir false).1.d1 *
          dnorm nextleg (-dendda) +
        (straightLineCost nextleg.norm (nextHeading firstleg nextleg) winddir false).1.d2 * dnext +
        ((turnCost (heading firstleg) (nextHeading firstleg nextleg) winddir).d1 * dfirst +
          (turnCost (heading firstleg) (nextHeading firstleg nextleg) winddir).d2 * dnext +
          (turnCost preheading (heading firstleg) winddir).d2 * dfirst) +
        (crossFinishCost alpha).2 := by
  intro firstleg nextleg dendda dfirst dnext
  unfold singleLineCostFree
  simp only [heading_eq, nextHeading_eq]
  rfl

end SingleLine

section SingleLine

variable {startline endline startpt : Vec ℝ} {alpha preheading : ℝ} {nextpt : Vec ℝ} {winddir : ℝ}

/-- The point on the gate moves along the gate. -/
theorem crossing_velocity (startline endline : Vec ℝ) (alpha : ℝ) :
    HasVelocityAt (crossing startline endline) (endline - startline) alpha := by
  constructor
  · exact (((hasDerivAt_id alpha).mul_const _).const_add startline.x).congr_deriv (one_mul _)
  · exact (((hasDerivAt_id alpha).mul_const _).const_add startline.y).congr_deriv (one_mul _)

/-- `nextheading` follows one of the legs, unless the next leg is just too long to be ignored. -/
theorem nextHeading_hasDerivModAt {first next : ℝ → Vec ℝ} {dfirst dnext t : ℝ}
    (hFirst : HasDerivModAt (2 * π) (fun u => heading (first u)) dfirst t)
    (hNext : HasDerivModAt (2 * π) (fun u => heading (next u)) dnext t)
    (hCont : ContinuousAt (fun u => (next u).squaredNorm) t)
    (hNe : (next t).squaredNorm ≠ 1 / 10 ^ 8) :
    HasDerivModAt (2 * π) (fun u => nextHeading (first u) (next u))
      (if (next t).squaredNorm < 1 / 10 ^ 8 then dfirst else dnext) t := by
  rcases lt_or_gt_of_ne hNe with hTiny | hLong
  · rw [if_pos hTiny]
    refine hFirst.congr_of_eventuallyEq ?_
    filter_upwards [hCont.eventually_lt_const hTiny] with u hu
    exact if_pos hu
  · rw [if_neg hLong.not_gt]
    refine hNext.congr_of_eventuallyEq ?_
    filter_upwards [hCont.eventually_const_lt hLong] with u hu
    exact if_neg (not_lt.mpr (le_of_lt hu))

/-- What does not depend on the next leg. -/
noncomputable def firstCost (startline endline startpt : Vec ℝ)
    (preheading winddir alpha : ℝ) : ℝ :=
  let firstleg := crossing startline endline alpha - startpt
  (straightLineCost firstleg.norm (heading firstleg) winddir true).1.cost +
    (turnCost preheading (heading firstleg) winddir).cost + (crossFinishCost alpha).1

/-- The end of the leg to the gate moves along the gate. -/
theorem firstLeg_velocity (startline endline startpt : Vec ℝ) (alpha : ℝ) :
    HasVelocityAt (fun a => crossing startline endline a - startpt) (endline - startline) alpha :=
  ⟨(crossing_velocity startline endline alpha).x.sub_const startpt.x,
    (crossing_velocity startline endline alpha).y.sub_const startpt.y⟩

/-- The cost of the first leg and the turn into it, as the point moves on the gate. -/
theorem firstCost_hasDerivAt
    (hRegular : SingleLineRegular startline endline startpt alpha preheading nextpt winddir) :
    let firstleg := crossing startline endline alpha - startpt
    let dendda := endline - startline
    HasDerivAt (firstCost startline endline startpt preheading winddir)
      ((straightLineCost firstleg.norm (heading firstleg) winddir true).1.d1 *
          dnorm firstleg dendda +
        (straightLineCost firstleg.norm (heading firstleg) winddir true).1.d2 *
          datan firstleg dendda +
        (turnCost preheading (heading firstleg) winddir).d2 * datan firstleg dendda +
        (crossFinishCost alpha).2) alpha := by
  intro firstleg dendda
  have hNorm := (Vec.norm_pos hRegular.start_ne).ne'
  have hLeg := firstLeg_velocity startline endline startpt alpha
  have hHead := heading_hasDerivModAt hLeg hNorm
  have hPre := turnCost_hasDerivAt (HasDerivModAt.const _ preheading alpha) hHead hRegular.preturn
  have hLine := straightLineCost_hasDerivAt (norm_hasDerivAt hLeg hNorm) hHead hRegular.first true
  refine ((hLine.add hPre).add (crossFinishCost_hasDerivAt hRegular.alpha_gt)).congr_deriv ?_
  rw [mul_zero, zero_add]

/-- The cost of the last line, along the finish line. -/
theorem singleLineCost_hasDerivAt
    (hRegular : SingleLineRegular startline endline startpt alpha preheading nextpt winddir)
    (hNe : (nextpt - crossing startline endline alpha).squaredNorm ≠ 1 / 10 ^ 8) :
    HasDerivAt
      (fun a => (singleLineCostFree startline endline startpt a preheading nextpt winddir).1)
      (singleLineCostFree startline endline startpt alpha preheading nextpt winddir).2.1 alpha := by
  have hCrossing := crossing_velocity startline endline alpha
  have hNormA := (Vec.norm_pos hRegular.start_ne).ne'
  have hNormB := (Vec.norm_pos hRegular.next_ne).ne'
  have hLegB : HasVelocityAt (fun a => nextpt - crossing startline endline a)
      (-(endline - startline)) alpha :=
    ⟨hCrossing.x.const_sub nextpt.x, hCrossing.y.const_sub nextpt.y⟩
  have hHeadA :=
    heading_hasDerivModAt (firstLeg_velocity startline endline startpt alpha) hNormA
  have hSquare : ContinuousAt
      (fun a => (nextpt - crossing startline endline a).squaredNorm) alpha := by
    simp only [Vec.squaredNorm_eq]
    exact ((hLegB.x.pow 2).add (hLegB.y.pow 2)).continuousAt
  have hHeadB :=
    nextHeading_hasDerivModAt hHeadA (heading_hasDerivModAt hLegB hNormB) hSquare hNe
  have hTurn := turnCost_hasDerivAt hHeadA hHeadB hRegular.turn
  have hLineB :=
    straightLineCost_hasDerivAt (norm_hasDerivAt hLegB hNormB) hHeadB hRegular.next false
  have hSum := (firstCost_hasDerivAt hRegular).add (hLineB.add hTurn)
  refine (hSum.congr_of_eventuallyEq (Eventually.of_forall ?_)).congr_deriv ?_
  · intro a
    show _ = firstCost startline endline startpt preheading winddir a + (_ + _)
    rw [singleLineCost_cost, firstCost]
    ring
  · rw [singleLineCost_deriv]
    ring

end SingleLine

-- ---------------------------------------------------------------------------
-- Twelfths of half a turn
-- ---------------------------------------------------------------------------

noncomputable def twelfths (m : ℤ) : ℝ := m / 12 * π

/-- Angles in twelfths of a turn, subtracted. -/
theorem twelfths_sub (m n : ℤ) : twelfths m - twelfths n = twelfths (m - n) := by
  unfold twelfths
  push_cast
  ring

/-- Different numbers of twelfths are different angles. -/
theorem twelfths_ne {m n : ℤ} (h : m ≠ n) : twelfths m ≠ twelfths n := by
  intro hEq
  have hCast : (m / 12 : ℝ) = n / 12 := mul_right_cancel₀ pi_ne_zero hEq
  exact h (by exact_mod_cast (by linarith : (m : ℝ) = n))

theorem twelfths_zero : twelfths 0 = 0 := by
  rw [twelfths, Int.cast_zero, zero_div, zero_mul]

section Twelfths

variable {m r : ℤ} (hMod : 24 ∣ r - m) (hLt : |r| < 12)
include hMod hLt

/-- An angle in twelfths is off the branch of `norm_angle` unless it is half a turn. -/
theorem offBranch_twelfths : OffBranch (twelfths m) := by
  intro k hk
  have hEq : (m / 12 : ℝ) = 2 * k + 1 := mul_right_cancel₀ pi_ne_zero hk
  have hInt : m = 12 * (2 * k + 1) := by
    exact_mod_cast (by linarith : (m : ℝ) = 12 * (2 * k + 1))
  rw [abs_lt] at hLt
  omega

/-- Whole turns are twelve twelfths. -/
theorem normAngle_twelfths : Util.normAngle (twelfths m) = twelfths r := by
  obtain ⟨k, hk⟩ := hMod
  refine Util.normAngle_eq ?_ ?_
  · rw [AddCommGroup.modEq_iff_eq_add_zsmul]
    refine ⟨-k, ?_⟩
    have hr : (r : ℝ) = m + 24 * k := by exact_mod_cast (by omega : r = m + 24 * k)
    rw [twelfths, twelfths, hr, zsmul_eq_mul]
    push_cast
    ring
  · have hLt' : |(r : ℝ)| < 12 := by exact_mod_cast hLt
    rw [twelfths, abs_mul, abs_div, abs_of_pos pi_pos, abs_of_pos (by norm_num : (0 : ℝ) < 12)]
    nlinarith [pi_pos]

end Twelfths

/-- A turn between twelfths: `p` and `n` are the edges of the no-go zone, `p'` and `n'` are the
edges from the start of the turn, and `r` is the turn. -/
theorem turnRegular_twelfths {s e w : ℤ} (p n p' n' r : ℤ) (hp : 24 ∣ p - (w + 15)) (hp' : |p| < 12)
    (hn : 24 ∣ n - (w + 9)) (hn' : |n| < 12) (hEdgeP : 24 ∣ p' - (p - s)) (hEdgeP' : |p'| < 12)
    (hEdgeN : 24 ∣ n' - (n - s)) (hEdgeN' : |n'| < 12) (hr : 24 ∣ r - (e - s)) (hr' : |r| < 12)
    (hNe : p' ≠ 0 ∧ n' ≠ 0 ∧ p' ≠ r ∧ n' ≠ r) :
    TurnRegular (twelfths s) (twelfths e) (twelfths w) := by
  obtain ⟨hPZero, hNZero, hPEnd, hNEnd⟩ := hNe
  have hPlusAbs : π + twelfths w + 1 * (π / 4) = twelfths (w + 15) := by
    unfold twelfths
    push_cast
    ring
  have hNegAbs : π + twelfths w + -1 * (π / 4) = twelfths (w + 9) := by
    unfold twelfths
    push_cast
    ring
  have hPlus : nogoEdge (twelfths s) (twelfths w) 1 = twelfths p' := by
    rw [nogoEdge, hPlusAbs, normAngle_twelfths hp hp', twelfths_sub,
      normAngle_twelfths hEdgeP hEdgeP']
  have hNeg : nogoEdge (twelfths s) (twelfths w) (-1) = twelfths n' := by
    rw [nogoEdge, hNegAbs, normAngle_twelfths hn hn', twelfths_sub,
      normAngle_twelfths hEdgeN hEdgeN']
  have hTurn : Util.normAngle (twelfths e - twelfths s) = twelfths r := by
    rw [twelfths_sub, normAngle_twelfths hr hr']
  constructor
  · rw [twelfths_sub]
    exact offBranch_twelfths hr hr'
  · rintro side (rfl | rfl)
    · exact hPlusAbs ▸ offBranch_twelfths hp hp'
    · exact hNegAbs ▸ offBranch_twelfths hn hn'
  · rintro side (rfl | rfl)
    · rw [hPlusAbs, normAngle_twelfths hp hp', twelfths_sub]
      exact offBranch_twelfths hEdgeP hEdgeP'
    · rw [hNegAbs, normAngle_twelfths hn hn', twelfths_sub]
      exact offBranch_twelfths hEdgeN hEdgeN'
  · rintro side (rfl | rfl)
    · exact hPlus ▸ twelfths_zero ▸ twelfths_ne hPZero
    · exact hNeg ▸ twelfths_zero ▸ twelfths_ne hNZero
  · rintro side (rfl | rfl)
    · rw [hPlus, hTurn]
      exact twelfths_ne hPEnd
    · rw [hNeg, hTurn]
      exact twelfths_ne hNEnd

/-- Away from the wind by more than 0.9 rad. -/
theorem lineRegular_twelfths {h w : ℤ} (r : ℤ) (hr : 24 ∣ r - (w + 12 - h)) (hr' : |r| < 12)
    (hAway : 4 ≤ |r|) : LineRegular (twelfths h) (twelfths w) := by
  have hUp : twelfths w + π - twelfths h = twelfths (w + 12 - h) := by
    unfold twelfths
    push_cast
    ring
  have hNorm : Util.normAngle (twelfths w + π - twelfths h) = twelfths r := by
    rw [hUp, normAngle_twelfths hr hr']
  have hSize : 1 ≤ |twelfths r| := by
    have hAway' : (4 : ℝ) ≤ |(r : ℝ)| := by exact_mod_cast hAway
    rw [twelfths, abs_mul, abs_div, abs_of_pos pi_pos, abs_of_pos (by norm_num : (0 : ℝ) < 12)]
    nlinarith [pi_gt_three]
  constructor
  · rw [hUp]
    exact offBranch_twelfths hr hr'
  · rw [hNorm, ← abs_pos]
    linarith
  · rw [hNorm]
    linarith

-- ---------------------------------------------------------------------------
-- To the north and to the east
-- ---------------------------------------------------------------------------

/-- A leg to the north is a quarter of a turn. -/
theorem heading_north : heading ⟨0, 1⟩ = twelfths 6 := by
  have hI : (⟨0, 1⟩ : Vec ℝ).toComplex = Complex.I := rfl
  rw [heading, hI, Complex.arg_I, twelfths]
  push_cast
  ring

/-- A leg to the east is no turn. -/
theorem heading_east {d : ℝ} (hd : 0 ≤ d) : heading ⟨d, 0⟩ = twelfths 0 := by
  have hReal : (⟨d, 0⟩ : Vec ℝ).toComplex = (d : ℂ) := rfl
  rw [heading, hReal, Complex.arg_ofReal_of_nonneg hd, twelfths_zero]

theorem winddir_twelfths : π / 3 = twelfths 4 := by
  rw [twelfths]
  push_cast
  ring

/-- The turn from the heading before into the first leg is regular. -/
theorem turnRegular_north : TurnRegular 0 (twelfths 6) (π / 3) := by
  rw [winddir_twelfths, ← twelfths_zero]
  exact turnRegular_twelfths (-5) (-11) (-5) (-11) 6 (by decide) (by decide) (by decide) (by decide)
    (by decide) (by decide) (by decide) (by decide) (by decide) (by decide) (by decide)

/-- So is the turn from the first leg into the second one. -/
theorem turnRegular_east : TurnRegular (twelfths 6) (twelfths 0) (π / 3) := by
  rw [winddir_twelfths]
  exact turnRegular_twelfths (-5) (-11) (-11) 7 (-6) (by decide) (by decide) (by decide) (by decide)
    (by decide) (by decide) (by decide) (by decide) (by decide) (by decide) (by decide)

/-- The first leg is off every boundary of `StraightLineCost`. -/
theorem lineRegular_north : LineRegular (twelfths 6) (π / 3) := by
  rw [winddir_twelfths]
  exact lineRegular_twelfths 10 (by decide) (by decide) (by decide)

/-- So is the second one. -/
theorem lineRegular_east : LineRegular (twelfths 0) (π / 3) := by
  rw [winddir_twelfths]
  exact lineRegular_twelfths (-8) (by decide) (by decide) (by decide)

/-- The points of a gate to the east. -/
theorem crossing_east (a : ℝ) : crossing ⟨0, 0⟩ ⟨1, 0⟩ a = ⟨a, 0⟩ := by
  apply Vec.ext <;> simp [crossing]

/-- To the north over the middle of a finish line. -/
theorem first_north : crossing ⟨0, 0⟩ ⟨1, 0⟩ (1 / 2) - ⟨1 / 2, -1⟩ = (⟨0, 1⟩ : Vec ℝ) := by
  rw [crossing_east]
  apply Vec.ext <;> simp

/-- From there, `d` to the east. -/
theorem next_east (d : ℝ) :
    ⟨1 / 2 + d, 0⟩ - crossing ⟨0, 0⟩ ⟨1, 0⟩ (1 / 2) = (⟨d, 0⟩ : Vec ℝ) := by
  rw [crossing_east]
  apply Vec.ext <;> simp

/-- A next leg of at least 1e-4 to the east has the heading east. -/
theorem nextHeading_east {d : ℝ} (hd : 1 / 10 ^ 4 ≤ d) :
    nextHeading ⟨0, 1⟩ ⟨d, 0⟩ = twelfths 0 := by
  have hPos : 0 < d := lt_of_lt_of_le (by norm_num) hd
  have hLong : ¬ (⟨d, 0⟩ : Vec ℝ).squaredNorm < 1 / 10 ^ 8 := by
    rw [Vec.squaredNorm_eq]
    nlinarith
  rw [nextHeading, if_neg hLong, heading_east hPos.le]

/-- The example for `SingleLineCost` is regular. -/
theorem singleLineRegular_east {d : ℝ} (hd : 1 / 10 ^ 4 ≤ d) :
    SingleLineRegular ⟨0, 0⟩ ⟨1, 0⟩ ⟨1 / 2, -1⟩ (1 / 2) 0 ⟨1 / 2 + d, 0⟩ (π / 3) := by
  have hPos : 0 < d := lt_of_lt_of_le (by norm_num) hd
  constructor
  · rw [crossing_east]
    simp
  · rw [crossing_east]
    simpa using hPos.ne'
  · norm_num
  · rw [first_north, heading_north]
    exact lineRegular_north
  · rw [first_north, next_east, nextHeading_east hd]
    exact lineRegular_east
  · rw [first_north, heading_north]
    exact turnRegular_north
  · rw [first_north, next_east, nextHeading_east hd, heading_north]
    exact turnRegular_east

/-- The example for `LinePairCost` is regular. -/
theorem linePairRegular_east :
    LinePairRegular ⟨0, -1⟩ ⟨1, 0⟩ ⟨0, 0⟩ 0 (twelfths 6) (π / 3) := by
  have hFirst : (⟨0, 0⟩ : Vec ℝ) - ⟨0, -1⟩ = ⟨0, 1⟩ := by
    apply Vec.ext <;> simp
  have hSecond : (⟨1, 0⟩ : Vec ℝ) - ⟨0, 0⟩ = ⟨1, 0⟩ := by
    apply Vec.ext <;> simp
  constructor
  · simp
  · simp
  · rw [hFirst, heading_north]
    exact lineRegular_north
  · rw [hSecond, heading_east zero_le_one]
    exact lineRegular_east
  · rw [hFirst, heading_north]
    exact turnRegular_north
  · rw [hFirst, hSecond, heading_north, heading_east zero_le_one]
    exact turnRegular_east
  · rw [hSecond, heading_east zero_le_one, twelfths_zero]
    exact turnRegular_north

-- ---------------------------------------------------------------------------
-- Lines of the planner
-- ---------------------------------------------------------------------------

/--
**The derivatives of the costs of lines.** At every last line of a path whose legs have a length
and whose angles are at no boundary, and whose next leg is not just as long as the shortest one
that is not ignored, the reported derivative is that of the cost; for a pair of lines, the
reported vector has the partial derivatives of its cost as components.
-/
theorem gradients_true :
    (∀ (startline endline startpt : Vec ℝ) (alpha preheading : ℝ) (nextpt : Vec ℝ) (winddir : ℝ),
      SingleLineRegular startline endline startpt alpha preheading nextpt winddir →
      (nextpt - crossing startline endline alpha).squaredNorm ≠ 1 / 10 ^ 8 →
      HasDerivAt
        (fun a => (singleLineCostFree startline endline startpt a preheading nextpt winddir).1)
        (singleLineCostFree startline endline startpt alpha preheading nextpt winddir).2.1
        alpha) ∧
      ∀ (startpt endpt turnpt : Vec ℝ) (preheading postheading winddir scalePre : ℝ),
        LinePairRegular startpt endpt turnpt preheading postheading winddir →
        HasDerivAt
            (fun x => (linePairCostFree startpt endpt ⟨x, turnpt.y⟩ preheading postheading winddir
              scalePre).1)
            (linePairCostFree startpt endpt turnpt preheading postheading winddir scalePre).2.1.x
            turnpt.x ∧
          HasDerivAt
            (fun y => (linePairCostFree startpt endpt ⟨turnpt.x, y⟩ preheading postheading winddir
              scalePre).1)
            (linePairCostFree startpt endpt turnpt preheading postheading winddir scalePre).2.1.y
            turnpt.y := by
  constructor
  · intro startline endline startpt alpha preheading nextpt winddir hRegular hNe
    exact singleLineCost_hasDerivAt hRegular hNe
  · intro startpt endpt turnpt preheading postheading winddir scalePre hRegular
    constructor
    · have hCurve : HasVelocityAt (fun x => (⟨x, turnpt.y⟩ : Vec ℝ)) ⟨1, 0⟩ turnpt.x :=
        ⟨hasDerivAt_id _, hasDerivAt_const _ _⟩
      refine (linePairCost_hasDerivAt scalePre hCurve hRegular).congr_deriv ?_
      rw [Vec.dot_eq, mul_one, mul_zero, add_zero]
    · have hCurve : HasVelocityAt (fun y => (⟨turnpt.x, y⟩ : Vec ℝ)) ⟨0, 1⟩ turnpt.y :=
        ⟨hasDerivAt_const _ _, hasDerivAt_id _⟩
      refine (linePairCost_hasDerivAt scalePre hCurve hRegular).congr_deriv ?_
      rw [Vec.dot_eq, mul_zero, mul_one, zero_add]

/-- To the north, and to the east: as the last line, and as a pair of lines. -/
theorem gradients_true_east :
    HasDerivAt
        (fun a => (singleLineCostFree ⟨0, 0⟩ ⟨1, 0⟩ ⟨1 / 2, -1⟩ a 0 ⟨1 / 2 + 1, 0⟩ (π / 3)).1)
        (singleLineCostFree ⟨0, 0⟩ ⟨1, 0⟩ ⟨1 / 2, -1⟩ (1 / 2) 0 ⟨1 / 2 + 1, 0⟩ (π / 3)).2.1
        (1 / 2) ∧
      HasDerivAt
          (fun x => (linePairCostFree ⟨0, -1⟩ ⟨1, 0⟩ ⟨x, 0⟩ 0 (twelfths 6) (π / 3) 2).1)
          (linePairCostFree ⟨0, -1⟩ ⟨1, 0⟩ ⟨0, 0⟩ 0 (twelfths 6) (π / 3) 2).2.1.x 0 ∧
        HasDerivAt
          (fun y => (linePairCostFree ⟨0, -1⟩ ⟨1, 0⟩ ⟨0, y⟩ 0 (twelfths 6) (π / 3) 2).1)
          (linePairCostFree ⟨0, -1⟩ ⟨1, 0⟩ ⟨0, 0⟩ 0 (twelfths 6) (π / 3) 2).2.1.y 0 := by
  have hLong : (⟨1 / 2 + 1, 0⟩ - crossing ⟨0, 0⟩ ⟨1, 0⟩ (1 / 2) : Vec ℝ).squaredNorm ≠
      1 / 10 ^ 8 := by
    rw [next_east, Vec.squaredNorm_eq]
    norm_num
  exact ⟨gradients_true.1 _ _ _ _ _ _ _ (singleLineRegular_east (by norm_num)) hLong,
    gradients_true.2 _ _ ⟨0, 0⟩ _ _ _ 2 linePairRegular_east⟩

-- ---------------------------------------------------------------------------
-- A next leg of 0.1 mm
-- ---------------------------------------------------------------------------

/-- Going straight on costs no turn. -/
theorem turnCost_same (h winddir : ℝ) : (turnCost h h winddir).cost = 0 := by
  have hNone : Util.normAngle (h - h) = 0 := by
    rw [sub_self]
    exact Util.normAngle_eq AddCommGroup.modEq_rfl (by simpa using pi_pos)
  have hLe := @turnCost_le winddir h h (by rw [hNone, abs_zero]; exact pi_pos)
  rw [hNone, zero_pow two_ne_zero, mul_zero] at hLe
  exact abs_nonpos_iff.mp hLe

/-- A turn that is neither none nor half a turn costs something. -/
theorem turnCost_pos {startheading endheading : ℝ} (winddir : ℝ)
    (hHalf : |Util.normAngle (endheading - startheading)| < π)
    (hNe : Util.normAngle (endheading - startheading) ≠ 0) :
    0 < (turnCost startheading endheading winddir).cost := by
  obtain ⟨side, endnorm, plusnogonorm, negnogonorm, hTurn, hCost⟩ :=
    turnCost_turn winddir hHalf
  have hPos : 0 < endnorm := by
    refine lt_of_le_of_ne hTurn.nonneg ?_
    rintro rfl
    rw [hTurn.normAngle_eq, mul_zero] at hNe
    exact hNe rfl
  have hNogo := le_max_left 0 (min endnorm (negnogonorm + π / 2) - max 0 negnogonorm)
  rw [hCost, hTurn.cost_eq, kTurnCost_real, kTackCost_real]
  positivity

/-- A leg that is not counted costs nothing. -/
theorem straightLineCost_approx (len h winddir : ℝ) :
    (straightLineCost len h winddir false).1.cost = 0 := by
  have hWeight : upwindWeight false = 0 := by
    show ((0 : ℚ) : ℝ) = 0
    simp
  rw [straightLineCost_clipped, clippedCost, hWeight]
  simp

/-- Where the cost of the last line is continuous, so is that of the turn to the next leg. -/
theorem turn_continuousAt {startline endline startpt : Vec ℝ} {alpha preheading : ℝ}
    {nextpt : Vec ℝ} {winddir : ℝ}
    (hRegular : SingleLineRegular startline endline startpt alpha preheading nextpt winddir)
    (hCost : ContinuousAt (fun a =>
      (singleLineCostFree startline endline startpt a preheading nextpt winddir).1) alpha) :
    ContinuousAt (fun a => (turnCost (heading (crossing startline endline a - startpt))
      (nextHeading (crossing startline endline a - startpt)
        (nextpt - crossing startline endline a)) winddir).cost) alpha := by
  refine (hCost.sub (firstCost_hasDerivAt hRegular).continuousAt).congr ?_
  refine Eventually.of_forall ?_
  intro a
  show (singleLineCostFree startline endline startpt a preheading nextpt winddir).1 -
    firstCost startline endline startpt preheading winddir a = _
  rw [singleLineCost_cost, straightLineCost_approx, firstCost]
  ring

/-- At a next leg of 0.1 mm to the east, the reported derivative is not that of the cost: on one
side of this point, the boat does not turn to the next leg, and the cost of the turn is missing.
Both turns go to one side. -/
theorem singleLineCost_jumps :
    (SingleLineRegular ⟨0, 0⟩ ⟨1, 0⟩ ⟨1 / 2, -1⟩ (1 / 2) 0 ⟨1 / 2 + 1 / 10 ^ 4, 0⟩ (π / 3) ∧
      Util.normAngle (heading (crossing ⟨0, 0⟩ ⟨1, 0⟩ (1 / 2) - ⟨1 / 2, -1⟩) - 0) ≠ 0 ∧
      Util.normAngle (nextHeading (crossing ⟨0, 0⟩ ⟨1, 0⟩ (1 / 2) - ⟨1 / 2, -1⟩)
          (⟨1 / 2 + 1 / 10 ^ 4, 0⟩ - crossing ⟨0, 0⟩ ⟨1, 0⟩ (1 / 2)) -
        heading (crossing ⟨0, 0⟩ ⟨1, 0⟩ (1 / 2) - ⟨1 / 2, -1⟩)) ≠ 0) ∧
      ¬ HasDerivAt
        (fun a => (singleLineCostFree ⟨0, 0⟩ ⟨1, 0⟩ ⟨1 / 2, -1⟩ a 0 ⟨1 / 2 + 1 / 10 ^ 4, 0⟩
          (π / 3)).1)
        (singleLineCostFree ⟨0, 0⟩ ⟨1, 0⟩ ⟨1 / 2, -1⟩ (1 / 2) 0 ⟨1 / 2 + 1 / 10 ^ 4, 0⟩
          (π / 3)).2.1 (1 / 2) := by
  have hRegular := @singleLineRegular_east (1 / 10 ^ 4) le_rfl
  have hFirst :
      Util.normAngle (heading (crossing ⟨0, 0⟩ ⟨1, 0⟩ (1 / 2) - ⟨1 / 2, -1⟩) - 0) ≠ 0 := by
    rw [first_north, heading_north, ← twelfths_zero, twelfths_sub,
      @normAngle_twelfths _ 6 (by decide) (by decide)]
    exact twelfths_ne (by decide)
  have hNext : Util.normAngle (nextHeading (crossing ⟨0, 0⟩ ⟨1, 0⟩ (1 / 2) - ⟨1 / 2, -1⟩)
      (⟨1 / 2 + 1 / 10 ^ 4, 0⟩ - crossing ⟨0, 0⟩ ⟨1, 0⟩ (1 / 2)) -
        heading (crossing ⟨0, 0⟩ ⟨1, 0⟩ (1 / 2) - ⟨1 / 2, -1⟩)) ≠ 0 := by
    rw [first_north, next_east, nextHeading_east le_rfl, heading_north, twelfths_sub,
      @normAngle_twelfths _ (-6) (by decide) (by decide), ← twelfths_zero]
    exact twelfths_ne (by decide)
  refine ⟨⟨hRegular, hFirst, hNext⟩, ?_⟩
  intro hDeriv
  have hCont := turn_continuousAt hRegular hDeriv.continuousAt
  have hPos := turnCost_pos (π / 3) hRegular.turn.turn.abs_normAngle_lt hNext
  have hBehind : ∀ᶠ a in 𝓝[>] (1 / 2 : ℝ), a ∈ Set.Ioo (1 / 2 : ℝ) (1 / 2 + 1 / 10 ^ 4) :=
    Ioo_mem_nhdsGT (by norm_num)
  obtain ⟨a, hTurn, hLow, hHigh⟩ :=
    ((hCont.eventually_const_lt hPos).filter_mono nhdsWithin_le_nhds |>.and hBehind).exists
  have hTiny : (⟨1 / 2 + 1 / 10 ^ 4, 0⟩ - crossing ⟨0, 0⟩ ⟨1, 0⟩ a : Vec ℝ).squaredNorm <
      1 / 10 ^ 8 := by
    rw [crossing_east, Vec.squaredNorm_eq]
    simp only [Vec.sub_x, Vec.sub_y]
    nlinarith
  rw [nextHeading, if_pos hTiny, turnCost_same] at hTurn
  exact lt_irrefl 0 hTurn

end Sailbot.Control.LineCost
