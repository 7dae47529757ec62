import Sailbot.Control.GateCrossing

/-!
# Where a gate is put

`MakeGateFromWaypoints` (`control/line_plan.cc`) in exact arithmetic. A gate is put on the
outside of the turn at its waypoint. Points within a micrometer are the same, and a course whose
two directions differ by as little as that goes straight on; there is no turn then, and the gate
is centered.

* `makeGate_cases` — the gate in every case.
* `gate_placed`    — its width, where it starts and the angles that it makes.
-/

namespace Sailbot.Control.LinePlan

open Lib Math LinePath
open Lib.Arith (lit litf)

/-- Two points that are treated as the same. -/
def Coincide (a b : Vec ℝ) : Prop := (b - a).norm < 1 / 10 ^ 6

/-- The direction from one point to another. -/
noncomputable def direction (a b : Vec ℝ) : Vec ℝ := (b - a) / (b - a).norm

/-- The directions to a point and from it are treated as the same. -/
def GoesStraight (prevpt gatept nextpt : Vec ℝ) : Prop :=
  (direction prevpt gatept - direction gatept nextpt).norm < 1 / 10 ^ 6

/-- A gate from the point `p` in the direction `d`. -/
noncomputable def gateFrom (p d : Vec ℝ) : Gate ℝ := (p, p + d * (20 : ℝ))

/-- A gate around the point `p`, across the direction `d`. -/
noncomputable def gateAcross (p d : Vec ℝ) : Gate ℝ :=
  let gateseg := (⟨-d.y, d.x⟩ : Vec ℝ) * (20 : ℝ)
  (p - gateseg / (2 : ℝ), p + gateseg - gateseg / (2 : ℝ))

/-- The four cases of the constructor. -/
theorem makeGate_cases (gatept prevpt nextpt : Vec ℝ) :
    (Coincide prevpt gatept ∧ Coincide gatept nextpt ∧
      makeGateFromWaypoints gatept prevpt nextpt =
        (gatept - ⟨10, 0⟩, gatept + ⟨10, 0⟩)) ∨
    (Coincide prevpt gatept ∧ ¬ Coincide gatept nextpt ∧
      makeGateFromWaypoints gatept prevpt nextpt =
        gateAcross gatept (direction gatept nextpt)) ∨
    (¬ Coincide prevpt gatept ∧ (Coincide gatept nextpt ∨ GoesStraight prevpt gatept nextpt) ∧
      makeGateFromWaypoints gatept prevpt nextpt =
        gateAcross gatept (direction prevpt gatept)) ∨
    (¬ Coincide prevpt gatept ∧ ¬ Coincide gatept nextpt ∧ ¬ GoesStraight prevpt gatept nextpt ∧
      makeGateFromWaypoints gatept prevpt nextpt =
        gateFrom gatept ((direction prevpt gatept - direction gatept nextpt) /
          (direction prevpt gatept - direction gatept nextpt).norm)) := by
  have hMin : (lit (1 / 10 ^ 6) : ℝ) = 1 / 10 ^ 6 := by
    rw [Arith.lit_real]
    norm_num
  have hTwo : (lit 2 : ℝ) = 2 := Rat.cast_ofNat 2
  unfold makeGateFromWaypoints
  dsimp only
  rw [kGateWidth_eq, hMin, hTwo]
  simp only [Bool.and_eq_true, Arith.lt_real]
  by_cases hPrev : (gatept - prevpt).norm < 1 / 10 ^ 6
  · by_cases hNext : (nextpt - gatept).norm < 1 / 10 ^ 6
    · rw [if_pos ⟨hPrev, hNext⟩]
      have hOffset : (⟨20 / 2, lit 0⟩ : Vec ℝ) = ⟨10, 0⟩ :=
        Vec.ext (by norm_num) (by rw [Arith.lit_real, Rat.cast_zero])
      rw [hOffset]
      exact .inl ⟨hPrev, hNext, rfl⟩
    · rw [if_neg fun h => hNext h.2, if_pos hPrev]
      exact .inr (.inl ⟨hPrev, hNext, rfl⟩)
  · rw [if_neg fun h => hPrev h.1, if_neg hPrev]
    by_cases hNext : (nextpt - gatept).norm < 1 / 10 ^ 6
    · rw [if_pos hNext]
      exact .inr (.inr (.inl ⟨hPrev, .inl hNext, rfl⟩))
    · rw [if_neg hNext]
      by_cases hStraight : ((gatept - prevpt) / (gatept - prevpt).norm -
          (nextpt - gatept) / (nextpt - gatept).norm).norm < 1 / 10 ^ 6
      · rw [if_pos hStraight]
        exact .inr (.inr (.inl ⟨hPrev, .inr hStraight, rfl⟩))
      · rw [if_neg hStraight]
        exact .inr (.inr (.inr ⟨hPrev, hNext, hStraight, rfl⟩))

-- ---------------------------------------------------------------------------
-- A gate across a leg
-- ---------------------------------------------------------------------------

/-- The horizontal gate at three points that coincide. -/
theorem middle_offset (p d : Vec ℝ) : Gate.middle (p - d, p + d) = p := by
  refine Vec.ext ?_ ?_ <;>
    simp only [Gate.middle, Vec.smul_x, Vec.smul_y, Vec.add_x, Vec.add_y, Vec.sub_x, Vec.sub_y,
      Arith.lit_real] <;>
    push_cast <;> ring

/-- A gate across a direction has the waypoint in its middle. -/
theorem middle_gateAcross (p d : Vec ℝ) : Gate.middle (gateAcross p d) = p := by
  refine Vec.ext ?_ ?_ <;>
    simp only [Gate.middle, gateAcross, Vec.smul_x, Vec.smul_y, Vec.add_x, Vec.add_y, Vec.sub_x,
      Vec.sub_y, Vec.div_x, Vec.div_y, Vec.mul_x, Vec.mul_y, Arith.lit_real] <;>
    push_cast <;> ring

/-- The gate is perpendicular to its leg. -/
theorem gateAcross_dot (p a b : Vec ℝ) :
    ((gateAcross p (direction a b)).2 - (gateAcross p (direction a b)).1).dot (b - a) = 0 := by
  simp only [gateAcross, direction, Vec.dot_eq, Vec.add_x, Vec.add_y, Vec.sub_x, Vec.sub_y,
    Vec.div_x, Vec.div_y, Vec.mul_x, Vec.mul_y]
  ring

-- ---------------------------------------------------------------------------
-- A gate outside a turn
-- ---------------------------------------------------------------------------

/-- A direction has length one. -/
theorem direction_unit {a b : Vec ℝ} (h : ¬ Coincide a b) :
    (direction a b).x ^ 2 + (direction a b).y ^ 2 = 1 := unit_of_div h

/-- The cosine of an angle, by the direction of the leg. -/
theorem angle_direction {u a b : Vec ℝ} (hu : u.norm = 20) :
    u.angle (b - a) = Real.arccos (u.dot (direction a b) / 20) := by
  rw [Vec.angle_eq, hu, Vec.dot_eq, Vec.dot_eq, direction, Vec.div_x, Vec.div_y]
  congr 1
  ring

/-- The way back has the other direction. -/
theorem direction_symm (a b : Vec ℝ) :
    (direction b a).x = -(direction a b).x ∧ (direction b a).y = -(direction a b).y := by
  have hNorm : (a - b).norm = (b - a).norm := by
    rw [Vec.norm_eq, Vec.norm_eq]
    simp only [Vec.sub_x, Vec.sub_y]
    rw [sub_sq_comm, sub_sq_comm a.y]
  simp only [direction, hNorm, Vec.div_x, Vec.div_y, Vec.sub_x, Vec.sub_y]
  constructor <;> ring

/-- The difference of two directions makes the same angle with the second one as with the first
one reversed, and not an acute one. -/
theorem turn_dot {a b : Vec ℝ} (ha : a.x ^ 2 + a.y ^ 2 = 1) (hb : b.x ^ 2 + b.y ^ 2 = 1) :
    (a - b).dot (-a) = (a - b).dot b ∧ (a - b).dot b ≤ 0 := by
  simp only [Vec.dot_eq, Vec.sub_x, Vec.sub_y, Vec.neg_x, Vec.neg_y]
  constructor
  · linear_combination hb - ha
  · have hSquares := add_nonneg (sq_nonneg (a.x - b.x)) (sq_nonneg (a.y - b.y))
    have hExpand : (a.x - b.x) ^ 2 + (a.y - b.y) ^ 2 =
        2 - 2 * (a.x * b.x + a.y * b.y) := by linear_combination ha + hb
    have hDot : (a.x - b.x) * b.x + (a.y - b.y) * b.y = a.x * b.x + a.y * b.y - 1 := by
      linear_combination -hb
    linarith

section Outside

variable {gatept prevpt nextpt : Vec ℝ}

/-- The vector from the start of a gate outside a turn to its end. -/
noncomputable def outward (prevpt gatept nextpt : Vec ℝ) : Vec ℝ :=
  (direction prevpt gatept - direction gatept nextpt) /
    (direction prevpt gatept - direction gatept nextpt).norm * (20 : ℝ)

/-- The gate has the same angle to both legs, and that is not an acute one. -/
theorem outward_dot (hPrev : ¬ Coincide prevpt gatept) (hNext : ¬ Coincide gatept nextpt)
    (hTurn : ¬ GoesStraight prevpt gatept nextpt) :
    (outward prevpt gatept nextpt).dot (direction gatept prevpt) =
      (outward prevpt gatept nextpt).dot (direction gatept nextpt) ∧
    (outward prevpt gatept nextpt).dot (direction gatept nextpt) ≤ 0 := by
  set a := direction prevpt gatept with ha
  set b := direction gatept nextpt with hb
  have hPos : 0 < (a - b).norm := lt_of_lt_of_le (by norm_num) (not_lt.mp hTurn)
  have hBack : direction gatept prevpt = -a :=
    Vec.ext (direction_symm prevpt gatept).1 (direction_symm prevpt gatept).2
  have hScale (c : Vec ℝ) :
      (outward prevpt gatept nextpt).dot c = 20 / (a - b).norm * (a - b).dot c := by
    simp only [outward, Vec.dot_eq, Vec.mul_x, Vec.mul_y, Vec.div_x, Vec.div_y, ← ha, ← hb]
    ring
  obtain ⟨hEq, hNeg⟩ := turn_dot (direction_unit hPrev) (direction_unit hNext)
  rw [hBack, hScale, hScale, hEq]
  exact ⟨rfl, mul_nonpos_of_nonneg_of_nonpos (by positivity) hNeg⟩

/-- The gate makes equal angles with both directions, which are not acute. -/
theorem outward_angle (hPrev : ¬ Coincide prevpt gatept) (hNext : ¬ Coincide gatept nextpt)
    (hTurn : ¬ GoesStraight prevpt gatept nextpt)
    (hLength : (outward prevpt gatept nextpt).norm = 20) :
    (outward prevpt gatept nextpt).angle (prevpt - gatept) =
      (outward prevpt gatept nextpt).angle (nextpt - gatept) ∧
    Real.pi / 2 ≤ (outward prevpt gatept nextpt).angle (nextpt - gatept) := by
  obtain ⟨hEq, hNeg⟩ := outward_dot hPrev hNext hTurn
  rw [angle_direction hLength, angle_direction hLength, hEq]
  refine ⟨rfl, ?_⟩
  have hArcsin := Real.arcsin_nonpos.mpr (div_nonpos_of_nonpos_of_nonneg hNeg
    (by norm_num : (0 : ℝ) ≤ 20))
  rw [Real.arccos]
  linarith

end Outside

/-- **Gates.** A gate is as wide as it should be. Where a neighbour coincides with its waypoint
or the course goes straight on, it is centered and perpendicular to the leg that remains.
Otherwise it starts at the waypoint, and makes equal angles with the directions to the neighbours,
which are not acute. -/
theorem gate_placed (gatept prevpt nextpt : Vec ℝ) :
    let gate := makeGateFromWaypoints gatept prevpt nextpt
    (gate.2 - gate.1).norm = kGateWidth ∧
    (Coincide prevpt gatept ∨ Coincide gatept nextpt ∨ GoesStraight prevpt gatept nextpt →
      Gate.middle gate = gatept ∧
      (¬ Coincide prevpt gatept → (gate.2 - gate.1).dot (gatept - prevpt) = 0) ∧
      (Coincide prevpt gatept → ¬ Coincide gatept nextpt →
        (gate.2 - gate.1).dot (nextpt - gatept) = 0)) ∧
    (¬ (Coincide prevpt gatept ∨ Coincide gatept nextpt ∨ GoesStraight prevpt gatept nextpt) →
      gate.1 = gatept ∧
      (gate.2 - gate.1).angle (prevpt - gatept) = (gate.2 - gate.1).angle (nextpt - gatept) ∧
      Real.pi / 2 ≤ (gate.2 - gate.1).angle (nextpt - gatept)) := by
  have hWidth := makeGate_norm gatept prevpt nextpt
  intro gate
  refine ⟨hWidth.trans kGateWidth_eq.symm, ?_⟩
  rcases makeGate_cases gatept prevpt nextpt with ⟨hPrev, hNext, hGate⟩ | ⟨hPrev, hNext, hGate⟩ |
    ⟨hPrev, hOr, hGate⟩ | ⟨hPrev, hNext, hTurn, hGate⟩
  · have hMiddle : Gate.middle gate = gatept := by
      show Gate.middle (makeGateFromWaypoints gatept prevpt nextpt) = gatept
      rw [hGate, middle_offset]
    exact ⟨fun _ => ⟨hMiddle, fun h => absurd hPrev h, fun _ h => absurd hNext h⟩,
      fun h => absurd (.inl hPrev) h⟩
  · have hGate : gate = gateAcross gatept (direction gatept nextpt) := hGate
    rw [hGate]
    exact ⟨fun _ => ⟨middle_gateAcross _ _, fun h => absurd hPrev h,
      fun _ _ => gateAcross_dot _ _ _⟩, fun h => absurd (.inl hPrev) h⟩
  · have hGate : gate = gateAcross gatept (direction prevpt gatept) := hGate
    rw [hGate]
    exact ⟨fun _ => ⟨middle_gateAcross _ _, fun _ => gateAcross_dot _ _ _,
      fun h => absurd h hPrev⟩, fun h => absurd (.inr hOr) h⟩
  · have hNone : ¬ (Coincide prevpt gatept ∨ Coincide gatept nextpt ∨
        GoesStraight prevpt gatept nextpt) := by
      rintro (h | h | h)
      · exact hPrev h
      · exact hNext h
      · exact hTurn h
    refine ⟨fun h => absurd h hNone, fun _ => ?_⟩
    have hGate : gate = gateFrom gatept _ := hGate
    have hSegment : gate.2 - gate.1 = outward prevpt gatept nextpt := by
      rw [hGate]
      refine Vec.ext ?_ ?_ <;>
        simp only [gateFrom, outward, Vec.sub_x, Vec.sub_y, Vec.add_x, Vec.add_y] <;> ring
    rw [hSegment]
    exact ⟨by rw [hGate]; rfl, outward_angle hPrev hNext hTurn (hSegment ▸ hWidth)⟩

end Sailbot.Control.LinePlan
