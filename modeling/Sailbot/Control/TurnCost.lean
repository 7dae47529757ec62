import Mathlib.Analysis.Real.Pi.Bounds
import Sailbot.Control.Angle
import Sailbot.Lib.Arc

/-!
# The cost of a turn

`TurnCost` (`control/line_plan.cc`) in exact arithmetic. Headings are points of a circle; a turn
is the shorter way from one to the other, and the no-go zone is the quarter of the circle around
straight upwind.

* `mirroredCost`  — the cost of a turn, by the angles of the source after mirroring.
* `Turn`          — what the source computes of these angles.
* `turnCost_eq`   — the cost by the lengths of the turn and of its part in the no-go zone.
-/

namespace Sailbot.Control.LineCost

open Lib Real MeasureTheory
open Lib.Arith (lit litf)

instance two_pi_fact : Fact (0 < 2 * π) := ⟨two_pi_pos⟩

abbrev Heading := AddCircle (2 * π)

-- ---------------------------------------------------------------------------
-- The angles of a turn
-- ---------------------------------------------------------------------------

/-- The second half of `TurnCost`. -/
noncomputable def mirroredCost (sign endnorm plusnogonorm negnogonorm : ℝ) : Cost2 ℝ :=
  if (plusnogonorm < 0 ∧ negnogonorm < 0) ∨ endnorm < negnogonorm then
    { cost := kTurnCost * endnorm * endnorm
      d1 := -2 * kTurnCost * sign * endnorm
      d2 := 2 * kTurnCost * sign * endnorm }
  else
    let startnogo := if negnogonorm < 0 then 0 else negnogonorm
    let endnogo := if endnorm < plusnogonorm ∨ plusnogonorm < 0 then endnorm else plusnogonorm
    let costbase := endnorm + (kTackCost - 1) * (endnogo - startnogo)
    { cost := kTurnCost * costbase * costbase
      d1 := -2 * kTurnCost * sign * (if negnogonorm < 0 then kTackCost else 1) * costbase
      d2 := 2 * kTurnCost * sign *
        (if endnorm < plusnogonorm ∨ plusnogonorm < 0 then kTackCost else 1) * costbase }

/-- The edge of the no-go zone on one side, from `startheading`. -/
noncomputable def nogoEdge (startheading winddir side : ℝ) : ℝ :=
  Util.normAngle (Util.normAngle (π + winddir + side * (π / 4)) - startheading)

/-- A turn to the left costs what its mirror image costs. -/
theorem turnCost_mirrored (startheading endheading winddir : ℝ) :
    turnCost startheading endheading winddir =
      if Util.normAngle (endheading - startheading) < 0 then
        mirroredCost (-1) (-Util.normAngle (endheading - startheading))
          (-nogoEdge startheading winddir (-1)) (-nogoEdge startheading winddir 1)
      else
        mirroredCost 1 (Util.normAngle (endheading - startheading))
          (nogoEdge startheading winddir 1) (nogoEdge startheading winddir (-1)) := by
  have hQuarter : (Arith.mPi / lit 4 : ℝ) = π / 4 := by
    show π / ((4 : ℚ) : ℝ) = π / 4
    norm_num
  have hPi : (Arith.mPi : ℝ) = π := rfl
  have hPlus : nogoEdge startheading winddir 1 =
      Util.normAngle (Util.normAngle (π + winddir + π / 4) - startheading) := by
    rw [nogoEdge, one_mul]
  have hNeg : nogoEdge startheading winddir (-1) =
      Util.normAngle (Util.normAngle (π + winddir - π / 4) - startheading) := by
    rw [nogoEdge, neg_one_mul, sub_eq_add_neg (π + winddir)]
  have hZero : (lit 0 : ℝ) = 0 := by simp
  have hOne : (lit 1 : ℝ) = 1 := by simp
  have hOne' : (litf 1 : ℝ) = 1 := by
    show ((1 : ℚ) : ℝ) = 1
    simp
  have hTwo : (lit 2 : ℝ) = 2 := by simp
  have hMinusOne : (lit (-1) : ℝ) = -1 := by simp
  have hMinusTwo : (lit (-2) : ℝ) = -2 := by simp
  unfold turnCost
  dsimp only
  rw [hQuarter, hPi, ← hPlus, ← hNeg]
  simp only [hZero, hOne, hOne', hTwo, hMinusOne, hMinusTwo, Arith.lt_real, Bool.or_eq_true,
    Bool.and_eq_true]
  split
  · simp only [mirroredCost, mul_neg_one]
  · rfl

/-- A turn to `side`, with all angles counted to this side. -/
theorem turnCost_sided (winddir : ℝ) {startheading endheading side : ℝ}
    (hSide : side = 1 ∨ side = -1)
    (hTurn : 0 < side * Util.normAngle (endheading - startheading)) :
    turnCost startheading endheading winddir =
      mirroredCost side (side * Util.normAngle (endheading - startheading))
        (side * nogoEdge startheading winddir side)
        (side * nogoEdge startheading winddir (-side)) := by
  rw [turnCost_mirrored]
  rcases hSide with rfl | rfl
  · rw [one_mul] at hTurn
    simp only [if_neg hTurn.not_gt, one_mul]
  · rw [neg_one_mul, neg_pos] at hTurn
    simp only [if_pos hTurn, neg_one_mul, neg_neg]

/-- What is known of the angles of a turn after mirroring, for less than half a turn: `side` is
the side to which the boat turns, and the other angles are counted to this side. -/
structure Turn (startheading endheading winddir side endnorm plusnogonorm negnogonorm : ℝ) :
    Prop where
  side_eq : side = 1 ∨ side = -1
  nonneg  : 0 ≤ endnorm
  lt      : endnorm < π
  stop    : endheading ≡ startheading + side * endnorm [PMOD 2 * π]
  plus    : plusnogonorm ≡ side * (winddir + π - startheading) + π / 4 [PMOD 2 * π]
  neg     : negnogonorm ≡ side * (winddir + π - startheading) - π / 4 [PMOD 2 * π]
  plus_le : |plusnogonorm| ≤ π
  neg_le  : |negnogonorm| ≤ π

/-- The edges are a quarter turn apart, around the direction into the wind. -/
theorem nogoEdge_modEq (startheading winddir side : ℝ) :
    nogoEdge startheading winddir side ≡
      winddir + π - startheading + side * (π / 4) [PMOD 2 * π] := by
  refine (Util.normAngle_modEq _).trans ?_
  rw [show winddir + π - startheading + side * (π / 4) =
    π + winddir + side * (π / 4) - startheading by ring]
  exact (Util.normAngle_modEq _).sub_right _

/-- An edge is at most half a turn away. -/
theorem abs_nogoEdge_le (startheading winddir side : ℝ) :
    |nogoEdge startheading winddir side| ≤ π :=
  Util.abs_normAngle_le _

/-- What `TurnCost` computes after mirroring. -/
theorem turnCost_turn (winddir : ℝ) {startheading endheading : ℝ}
    (hHalf : |Util.normAngle (endheading - startheading)| < π) :
    ∃ side endnorm plusnogonorm negnogonorm,
      Turn startheading endheading winddir side endnorm plusnogonorm negnogonorm ∧
      turnCost startheading endheading winddir =
        mirroredCost side endnorm plusnogonorm negnogonorm := by
  obtain ⟨hLow, hHigh⟩ := abs_lt.mp hHalf
  have hStop : endheading ≡
      Util.normAngle (endheading - startheading) + startheading [PMOD 2 * π] :=
    AddCommGroup.sub_modEq_iff_modEq_add.mp (Util.normAngle_modEq _).symm
  have hPlus := nogoEdge_modEq startheading winddir 1
  have hNeg := nogoEdge_modEq startheading winddir (-1)
  rw [turnCost_mirrored]
  split
  case isTrue h =>
    have hPlus' := AddCommGroup.neg_modEq_neg.mpr hNeg
    have hNeg' := AddCommGroup.neg_modEq_neg.mpr hPlus
    refine ⟨-1, _, _, _, ⟨Or.inr rfl, by linarith, by linarith, ?_, ?_, ?_, ?_, ?_⟩, rfl⟩
    · rwa [neg_mul_neg, one_mul, add_comm startheading]
    · rwa [show -1 * (winddir + π - startheading) + π / 4 =
        -(winddir + π - startheading + -1 * (π / 4)) by ring]
    · rwa [show -1 * (winddir + π - startheading) - π / 4 =
        -(winddir + π - startheading + 1 * (π / 4)) by ring]
    · rw [abs_neg]
      exact abs_nogoEdge_le _ _ _
    · rw [abs_neg]
      exact abs_nogoEdge_le _ _ _
  case isFalse h =>
    refine ⟨1, _, _, _, ⟨Or.inl rfl, by linarith, by linarith, ?_, ?_, ?_, ?_, ?_⟩, rfl⟩
    · rwa [one_mul, add_comm startheading]
    · simpa only [one_mul] using hPlus
    · simpa only [one_mul, neg_one_mul, ← sub_eq_add_neg] using hNeg
    · exact abs_nogoEdge_le _ _ _
    · exact abs_nogoEdge_le _ _ _

-- ---------------------------------------------------------------------------
-- Lengths
-- ---------------------------------------------------------------------------

/-- The length of the shorter way from one heading to the other. -/
noncomputable def turnLength (startheading endheading : ℝ) : ℝ :=
  volume.real (arc (startheading : Heading) endheading)

/-- The length of the part of it that is within an eighth of a turn of straight upwind. -/
noncomputable def nogoLength (startheading endheading winddir : ℝ) : ℝ :=
  volume.real (arc (startheading : Heading) endheading ∩
    Metric.closedBall ((winddir + π : ℝ) : Heading) (π / 4))

namespace Turn

variable {startheading endheading winddir side endnorm plusnogonorm negnogonorm : ℝ}
  (hTurn : Turn startheading endheading winddir side endnorm plusnogonorm negnogonorm)
include hTurn

/-- The no-go zone is a quarter of a turn wide, and may go across the half turn. -/
theorem plus_cases :
    plusnogonorm = negnogonorm + π / 2 ∨ plusnogonorm = negnogonorm - 3 * (π / 2) := by
  obtain ⟨hPlusLow, hPlusHigh⟩ := abs_le.mp hTurn.plus_le
  obtain ⟨hNegLow, hNegHigh⟩ := abs_le.mp hTurn.neg_le
  have hWide : negnogonorm + π / 2 ≡ plusnogonorm [PMOD 2 * π] := by
    refine (hTurn.neg.add_right (π / 2)).trans ?_
    rw [show side * (winddir + π - startheading) - π / 4 + π / 2 =
      side * (winddir + π - startheading) + π / 4 by ring]
    exact hTurn.plus.symm
  obtain ⟨z, hz⟩ := AddCommGroup.modEq_iff_eq_add_zsmul.mp hWide
  rw [zsmul_eq_mul] at hz
  have hPos := pi_pos
  have hLow : (-2 : ℝ) < z := by nlinarith
  have hHigh : (z : ℝ) < 1 := by nlinarith
  have hLow' : -2 < z := by exact_mod_cast hLow
  have hHigh' : z < 1 := by exact_mod_cast hHigh
  obtain rfl | rfl : z = 0 ∨ z = -1 := by omega
  · left
    rw [hz]
    simp
  · right
    rw [hz]
    push_cast
    ring

/-- The turn is its length to its side. -/
theorem normAngle_eq : Util.normAngle (endheading - startheading) = side * endnorm := by
  refine Util.normAngle_eq ?_ ?_
  · exact (AddCommGroup.sub_modEq_iff_modEq_add'.mpr hTurn.stop).symm
  · have := hTurn.lt
    have := hTurn.nonneg
    rcases hTurn.side_eq with rfl | rfl
    · rwa [one_mul, abs_of_nonneg hTurn.nonneg]
    · rwa [neg_one_mul, abs_neg, abs_of_nonneg hTurn.nonneg]

/-- The end of the turn on the circle. -/
theorem coe_end : (endheading : Heading) = (startheading + side * endnorm : ℝ) := by
  exact AddCommGroup.modEq_iff_eq_mod_zmultiples.mp hTurn.stop

/-- How long the turn is. -/
theorem turnLength_eq : turnLength startheading endheading = endnorm := by
  have hAbs : |side * endnorm| = endnorm := by
    rcases hTurn.side_eq with rfl | rfl
    · rw [one_mul, abs_of_nonneg hTurn.nonneg]
    · rw [neg_one_mul, abs_neg, abs_of_nonneg hTurn.nonneg]
  rw [turnLength, hTurn.coe_end, measureReal_def, volume_arc, hAbs,
    ENNReal.toReal_ofReal hTurn.nonneg]
  rw [hAbs]
  linarith [hTurn.lt]

/-- A point of the turn is in the no-go zone when it is up to a quarter of a turn behind the near
edge. -/
theorem mem_nogo_iff {t : ℝ} (ht : t ∈ Set.Icc 0 endnorm) :
    ((startheading + side * t : ℝ) : Heading) ∈
        Metric.closedBall ((winddir + π : ℝ) : Heading) (π / 4) ↔
      t ∈ Set.Icc negnogonorm (negnogonorm + π / 2) := by
  obtain ⟨hNegLow, hNegHigh⟩ := abs_le.mp hTurn.neg_le
  obtain ⟨hZero, hEnd⟩ := ht
  -- the distance to straight upwind, counted to the side of the turn and from the near edge
  have hNorm : ‖((startheading + side * t - (winddir + π) : ℝ) : Heading)‖ =
      ‖((t - (negnogonorm + π / 4) : ℝ) : Heading)‖ := by
    have hNear : t - (negnogonorm + π / 4) ≡
        t - side * (winddir + π - startheading) [PMOD 2 * π] := by
      refine (AddCommGroup.ModEq.sub_left t (hTurn.neg.add_right (π / 4))).trans ?_
      rw [sub_add_cancel]
      exact AddCommGroup.modEq_rfl
    rw [AddCommGroup.modEq_iff_eq_mod_zmultiples.mp hNear]
    rcases hTurn.side_eq with rfl | rfl
    · congr 2
      ring
    · rw [← norm_neg, ← AddCircle.coe_neg]
      congr 2
      ring
  have hBall : ((startheading + side * t : ℝ) : Heading) ∈
        Metric.closedBall ((winddir + π : ℝ) : Heading) (π / 4) ↔
      |t - (negnogonorm + π / 4)| ≤ π / 4 := by
    rw [Metric.mem_closedBall, dist_eq_norm, ← AddCircle.coe_sub, hNorm]
    refine norm_coe_le_iff (by linarith [pi_pos]) (abs_lt.mpr ⟨?_, ?_⟩)
    · linarith [pi_pos]
    · linarith [hTurn.lt]
  rw [hBall, abs_le, Set.mem_Icc]
  constructor
  · rintro ⟨hLow, hHigh⟩
    constructor <;> linarith
  · rintro ⟨hLow, hHigh⟩
    constructor <;> linarith

/-- How much of it is in the no-go zone. -/
theorem nogoLength_eq :
    nogoLength startheading endheading winddir =
      max 0 (min endnorm (negnogonorm + π / 2) - max 0 negnogonorm) := by
  have hSet : {t ∈ Set.Icc 0 endnorm | ((startheading + side * t : ℝ) : Heading) ∈
      Metric.closedBall ((winddir + π : ℝ) : Heading) (π / 4)} =
      Set.Icc (max 0 negnogonorm) (min endnorm (negnogonorm + π / 2)) := by
    rw [← Set.Icc_inter_Icc]
    ext t
    exact and_congr_right fun ht => hTurn.mem_nogo_iff ht
  rw [nogoLength, hTurn.coe_end, measureReal_def,
    volume_arc_inter_side hTurn.side_eq hTurn.nonneg (by linarith [hTurn.lt])
      Metric.isClosed_closedBall.measurableSet, hSet, Real.volume_Icc, ENNReal.toReal_ofReal',
    max_comm]

/-- The distance in the no-go zone is counted right: where the zone begins before the turn or
ends behind it, where it begins behind the turn or ends before it, and where it goes across the
half turn. -/
theorem cost_eq :
    (mirroredCost side endnorm plusnogonorm negnogonorm).cost =
      kTurnCost * (endnorm + (kTackCost - 1) *
        max 0 (min endnorm (negnogonorm + π / 2) - max 0 negnogonorm)) ^ 2 := by
  have hPos := pi_pos
  have hLt := hTurn.lt
  have hNonneg := hTurn.nonneg
  obtain ⟨hNegLow, hNegHigh⟩ := abs_le.mp hTurn.neg_le
  obtain ⟨hPlusLow, hPlusHigh⟩ := abs_le.mp hTurn.plus_le
  have hPlus := hTurn.plus_cases
  unfold mirroredCost
  split
  case isTrue hAway =>
    have hNone : min endnorm (negnogonorm + π / 2) - max 0 negnogonorm ≤ 0 := by
      grind
    rw [max_eq_left hNone]
    dsimp only
    ring
  case isFalse hThrough =>
    dsimp only
    have hStart : (if negnogonorm < 0 then 0 else negnogonorm) = max 0 negnogonorm := by
      grind
    have hEnd : (if endnorm < plusnogonorm ∨ plusnogonorm < 0 then endnorm else plusnogonorm) =
        min endnorm (negnogonorm + π / 2) := by
      grind
    have hSome : 0 ≤ min endnorm (negnogonorm + π / 2) - max 0 negnogonorm := by
      grind
    rw [hStart, hEnd, max_eq_right hSome]
    ring

/-- Only the differences of the headings matter. -/
theorem rotate (φ : ℝ) :
    Turn (startheading + φ) (endheading + φ) (winddir + φ) side endnorm plusnogonorm
      negnogonorm where
  side_eq := hTurn.side_eq
  nonneg := hTurn.nonneg
  lt := hTurn.lt
  stop := by
    rw [add_right_comm]
    exact hTurn.stop.add_right φ
  plus := by
    rw [add_right_comm, add_sub_add_right_eq_sub]
    exact hTurn.plus
  neg := by
    rw [add_right_comm, add_sub_add_right_eq_sub]
    exact hTurn.neg
  plus_le := hTurn.plus_le
  neg_le := hTurn.neg_le

end Turn

-- ---------------------------------------------------------------------------
-- The cost
-- ---------------------------------------------------------------------------

variable {startheading endheading winddir : ℝ}

/-- The cost of a turn of less than half a turn, by its lengths. -/
theorem turnCost_lengths (hHalf : |Util.normAngle (endheading - startheading)| < π) :
    (turnCost startheading endheading winddir).cost =
      kTurnCost * (turnLength startheading endheading +
        (kTackCost - 1) * nogoLength startheading endheading winddir) ^ 2 := by
  obtain ⟨side, endnorm, plusnogonorm, negnogonorm, hTurn, hCost⟩ :=
    turnCost_turn winddir hHalf
  rw [hCost, hTurn.cost_eq, hTurn.turnLength_eq, hTurn.nogoLength_eq]

/-- Whole turns do not matter on the circle. -/
theorem coe_add_turns (θ : ℝ) (k : ℤ) : ((θ + k * (2 * π) : ℝ) : Heading) = θ := by
  refine AddCommGroup.modEq_iff_eq_mod_zmultiples.mp ?_
  rw [← zsmul_eq_mul]
  exact AddCommGroup.add_zsmul_modEq k

/--
**The cost of a turn.** For less than half a turn, the cost is that of the length of the turn
and of the length of its part in the no-go zone. It depends on the headings as points of the
circle, on their positions to each other, and not on the order of the first two.
-/
theorem turnCost_eq (startheading endheading winddir : ℝ)
    (hHalf : |Util.normAngle (endheading - startheading)| < π) :
    (turnCost startheading endheading winddir).cost =
        kTurnCost * (turnLength startheading endheading +
          (kTackCost - 1) * nogoLength startheading endheading winddir) ^ 2 ∧
      (∀ i j k : ℤ,
        (turnCost (startheading + i * (2 * π)) (endheading + j * (2 * π))
          (winddir + k * (2 * π))).cost = (turnCost startheading endheading winddir).cost) ∧
      (∀ φ : ℝ, (turnCost (startheading + φ) (endheading + φ) (winddir + φ)).cost =
        (turnCost startheading endheading winddir).cost) ∧
      (turnCost endheading startheading winddir).cost =
        (turnCost startheading endheading winddir).cost := by
  refine ⟨turnCost_lengths hHalf, ?_, ?_, ?_⟩
  · intro i j k
    have hTurns : Util.normAngle (endheading + j * (2 * π) - (startheading + i * (2 * π))) =
        Util.normAngle (endheading - startheading) := by
      refine Util.normAngle_eq ((Util.normAngle_modEq _).trans ?_) hHalf
      rw [AddCommGroup.modEq_iff_eq_add_zsmul]
      exact ⟨j - i, by rw [zsmul_eq_mul]; push_cast; ring⟩
    rw [turnCost_lengths hHalf, turnCost_lengths (by rwa [hTurns])]
    have hWind : winddir + k * (2 * π) + π = winddir + π + k * (2 * π) := add_right_comm _ _ _
    simp only [turnLength, nogoLength, coe_add_turns, hWind]
  · intro φ
    have hSame : endheading + φ - (startheading + φ) = endheading - startheading :=
      add_sub_add_right_eq_sub _ _ _
    obtain ⟨side, endnorm, plusnogonorm, negnogonorm, hTurn, -⟩ :=
      turnCost_turn winddir hHalf
    rw [turnCost_lengths hHalf, turnCost_lengths (by rwa [hSame]), hTurn.turnLength_eq,
      hTurn.nogoLength_eq, (hTurn.rotate φ).turnLength_eq, (hTurn.rotate φ).nogoLength_eq]
  · have hBack : Util.normAngle (startheading - endheading) =
        -Util.normAngle (endheading - startheading) := by
      refine Util.normAngle_eq ?_ (by rwa [abs_neg])
      rw [← neg_sub endheading startheading]
      exact AddCommGroup.neg_modEq_neg.mpr (Util.normAngle_modEq _)
    rw [turnCost_lengths hHalf, turnCost_lengths (by rwa [hBack, abs_neg])]
    simp only [turnLength, nogoLength, arc_comm (endheading : Heading)]

/-- A tack, from 1 rad to the right of the wind to 1 rad to the left. -/
theorem turnCost_eq_tack :
    (turnCost (-1) 1 π).cost =
        kTurnCost * (turnLength (-1) 1 + (kTackCost - 1) * nogoLength (-1) 1 π) ^ 2 ∧
      (∀ i j k : ℤ,
        (turnCost (-1 + i * (2 * π)) (1 + j * (2 * π)) (π + k * (2 * π))).cost =
          (turnCost (-1) 1 π).cost) ∧
      (∀ φ : ℝ, (turnCost (-1 + φ) (1 + φ) (π + φ)).cost = (turnCost (-1) 1 π).cost) ∧
      (turnCost 1 (-1) π).cost = (turnCost (-1) 1 π).cost := by
  have hTwo : |(1 : ℝ) - -1| < π := by
    norm_num
    linarith [pi_gt_three]
  exact turnCost_eq (-1) 1 π (by rwa [Util.normAngle_eq AddCommGroup.modEq_rfl hTwo])

end Sailbot.Control.LineCost
