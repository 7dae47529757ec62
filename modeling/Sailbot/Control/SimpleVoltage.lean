import Sailbot.Control.Angle
import Sailbot.Control.Simple
import Sailbot.Lib.Exact

/-!
# The voltage of the sail

What `SimpleControl::Iterate` computes in exact arithmetic. The voltage is a quotient by the root of
the error of the sail, which has no value where the sail is at its goal.

* `SimpleControl.sailErr_eq_zero_iff` — where this is.
* `SimpleControl.commands_iff`        — the commands are defined everywhere else.
-/

namespace Sailbot.Control.SimpleControl

open Lib Real
open Lib.Arith (lit litf)
open Exact (real)

-- ---------------------------------------------------------------------------
-- Real numbers
-- ---------------------------------------------------------------------------

variable {x lo hi : ℝ} (i : Inputs ℝ)

/-- Clipping numbers that are defined. -/
theorem real_clip : Util.clip (real x) (real lo) (real hi) = real (Util.clip x lo hi) := by
  rw [Util.clip, Util.clip, Exact.real_min, Exact.real_max]

/-- Bringing a defined angle into one turn. -/
theorem real_normAngle : Util.normAngle (real x) = real (Util.normAngle x) := by
  have hTau : (lit 2 * Arith.mPi : ℝ) ≠ 0 := by
    show ((2 : ℚ) : ℝ) * π ≠ 0
    exact mul_ne_zero (by norm_num) pi_ne_zero
  unfold Util.normAngle
  simp only [Exact.real_lit, Exact.real_mPi, Exact.real_mul, Exact.real_div hTau, Exact.real_add,
    Exact.real_sub, Exact.real_trunc, Exact.real_neg, Exact.real_ite]

/-- The error of the heading of defined inputs is defined. -/
theorem real_headingErr : headingErr id (i.map real) = real (headingErr id i) := by
  rw [headingErr, id_eq]
  exact real_normAngle

/-- The direction of the wind of defined inputs is defined. -/
theorem real_alphaw : alphaw id (i.map real) = real (alphaw id i) := by
  rw [alphaw, id_eq]
  exact real_normAngle

/-- The part of the turn in the sail of defined inputs is defined. -/
theorem real_turningSail : turningSail id (i.map real) = real (turningSail id i) := by
  unfold turningSail
  rw [real_alphaw, real_headingErr]
  simp only [Exact.real_lit, Exact.real_ite, Exact.real_mul, real_clip]

/-- The goal of the sail of defined inputs is defined. -/
theorem real_goal : goal id (i.map real) = real (goal id i) := by
  unfold goal
  rw [real_alphaw, real_turningSail]
  simp only [Inputs.map, id_eq, Exact.real_abs, Exact.real_lit, Exact.real_sub, Exact.real_max,
    Exact.real_min, Exact.real_mul, Exact.real_add]

/-- The error of the sail of defined inputs is defined. -/
theorem real_sailErr : sailErr id (i.map real) = real (sailErr id i) := by
  rw [sailErr, sailErr, real_goal]
  exact real_normAngle

/-- The bound on the rudder of defined inputs is defined. -/
theorem real_maxRudder : maxRudder id (i.map real) = real (maxRudder id i) := by
  have hSq : (0 : ℝ) ≤ i.vx * i.vx + i.vy * i.vy :=
    add_nonneg (mul_self_nonneg _) (mul_self_nonneg _)
  unfold maxRudder
  simp only [Inputs.map, id_eq, Exact.real_mul, Exact.real_add, Exact.real_sqrt hSq,
    Exact.real_lit, Exact.real_ite]

/-- The goal of the rudder of defined inputs is defined. -/
theorem real_goalRudder : goalRudder id (i.map real) = real (goalRudder id i) := by
  unfold goalRudder newIntegrator
  rw [real_maxRudder, real_headingErr]
  simp only [Inputs.map, dt, Exact.real_lit, Exact.real_litf, Exact.real_mul, Exact.real_add,
    Exact.real_neg, real_clip]

-- ---------------------------------------------------------------------------
-- The sail
-- ---------------------------------------------------------------------------

/-- The sail is at the angle that the controller wants it to have, up to whole turns: the apparent
wind gives it up to 1.5, from 0.8 to the bow on; heel, extra sail and a turn are added. -/
def SailAtGoal (i : Inputs ℝ) : Prop :=
  let wind := Complex.arg ⟨-i.windX, i.windY⟩
  let turn := max (min (Util.normAngle (i.heading - i.yaw)) (1 / 2)) (-1 / 2)
  min (max (|wind| - 4 / 5) 0) (3 / 2) + i.sailHeelK * |i.heel| + i.extraSail +
    (if 0 < wind then 1 else -1) * (9 / 10) * turn ≡ i.sail [PMOD 2 * π]

/-- Clipping over the real numbers. -/
theorem clip_real : Util.clip x lo hi = max (min x hi) lo := by
  rw [Util.clip, Arith.min_real, Arith.max_real]

/-- The angle of a vector is normal already. -/
theorem normAngle_arg (z : ℂ) : Util.normAngle (Complex.arg z) = Complex.arg z := by
  rw [Util.normAngle_eq_ite, if_neg (not_lt.mpr (Complex.arg_le_pi z)),
    if_neg (not_lt.mpr (Complex.neg_pi_lt_arg z).le)]

/-- The direction of the wind as the argument of a complex number. -/
theorem alphaw_real : alphaw id i = Complex.arg ⟨-i.windX, i.windY⟩ := normAngle_arg _

/-- The goal of the sail, with its three parts written out. -/
theorem goal_real :
    goal id i =
      min (max (|Complex.arg ⟨-i.windX, i.windY⟩| - 4 / 5) 0) (3 / 2) + i.sailHeelK * |i.heel| +
        i.extraSail + (if 0 < Complex.arg ⟨-i.windX, i.windY⟩ then 1 else -1) * (9 / 10) *
          max (min (Util.normAngle (i.heading - i.yaw)) (1 / 2)) (-1 / 2) := by
  unfold goal turningSail
  rw [alphaw_real, clip_real, Arith.abs_real, Arith.abs_real, Arith.max_real, Arith.min_real]
  simp only [id_eq, headingErr, Arith.lit_real, Arith.lt_real]
  norm_num

/-- There is no error of the sail, if and only if the sail is at its goal. -/
theorem sailErr_eq_zero_iff : sailErr id i = 0 ↔ SailAtGoal i := by
  have hErr : sailErr id i ≡ goal id i - i.sail [PMOD 2 * π] := Util.normAngle_modEq _
  have hGoal : SailAtGoal i ↔ goal id i ≡ i.sail [PMOD 2 * π] := by
    rw [goal_real]
    exact Iff.rfl
  rw [hGoal, ← AddCommGroup.sub_modEq_zero]
  constructor
  · intro hZero
    exact (hZero ▸ hErr).symm
  · intro hAt
    refine Util.eq_of_modEq (hErr.trans hAt) ?_
    rw [sub_zero]
    exact (Util.abs_normAngle_le _).trans_lt (by linarith [pi_pos])

/-- A quotient by a root is a root, with the sign. -/
theorem div_sqrt_abs {e : ℝ} (he : e ≠ 0) : e / √|e| = SignType.sign e * √|e| := by
  have hPos : 0 < √|e| := sqrt_pos.mpr (abs_pos.mpr he)
  rw [div_eq_iff hPos.ne', mul_assoc, mul_self_sqrt (abs_nonneg e), sign_mul_abs]

/-- Away from the goal the voltage is the signed square root of the error. -/
theorem real_voltage (h : sailErr id i ≠ 0) :
    voltage id (i.map real) =
      real (i.winchKp * SignType.sign (sailErr id i) * √|sailErr id i|) := by
  have hRoot : Arith.sqrt |sailErr id i| ≠ 0 := (sqrt_pos.mpr (abs_pos.mpr h)).ne'
  unfold voltage
  rw [real_sailErr]
  simp only [id_eq, Inputs.map, Exact.real_mul, Exact.real_abs, Arith.abs_real,
    Exact.real_sqrt (abs_nonneg (sailErr id i)), Exact.real_div hRoot]
  congr 1
  rw [mul_div_assoc, mul_assoc, ← div_sqrt_abs h]
  rfl

/-- At the goal, zero is divided by zero. -/
theorem undefined_voltage (h : sailErr id i = 0) :
    voltage id (i.map real) = Exact.undefined := by
  have hRoot : Arith.sqrt |(0 : ℝ)| = 0 := by
    rw [abs_zero]
    exact sqrt_zero
  unfold voltage
  rw [real_sailErr, h]
  simp only [id_eq, Exact.real_abs, Arith.abs_real, Exact.real_sqrt (abs_nonneg (0 : ℝ)), hRoot]
  exact Exact.real_div_zero

-- ---------------------------------------------------------------------------
-- The rudder
-- ---------------------------------------------------------------------------

/-- What is clipped to a symmetric interval is no larger than its bound. -/
theorem abs_clip_le {bound : ℝ} (h : 0 ≤ bound) : |Util.clip x (-bound) bound| ≤ bound := by
  rw [clip_real, abs_le]
  exact ⟨le_max_right _ _, max_le (min_le_right _ _) (by linarith)⟩

/-- The bound on the rudder is between zero and the constant. -/
theorem maxRudder_le (h : 0 ≤ i.maxRudder) :
    0 ≤ maxRudder id i ∧ maxRudder id i ≤ i.maxRudder := by
  have hSpeed : ¬ Arith.lt (Arith.sqrt (i.vx * i.vx + i.vy * i.vy)) (lit 0) = true := by
    rw [Arith.lt_real, Arith.lit_real, Rat.cast_zero, not_lt]
    exact sqrt_nonneg _
  have hSlower : (lit (8 / 10) * i.maxRudder : ℝ) = 4 / 5 * i.maxRudder := by
    show ((8 / 10 : ℚ) : ℝ) * _ = _
    norm_num
  unfold maxRudder
  simp only [id_eq]
  rw [if_neg hSpeed]
  split
  · exact ⟨h, le_rfl⟩
  · rw [hSlower]
    constructor <;> linarith

/-- The goal of the rudder is within the constant. -/
theorem abs_goalRudder_le (h : 0 ≤ i.maxRudder) : |goalRudder id i| ≤ i.maxRudder := by
  obtain ⟨hNonneg, hLe⟩ := maxRudder_le i h
  show |(-Util.clip _ _ _ : ℝ)| ≤ _
  rw [abs_neg]
  exact (abs_clip_le hNonneg).trans hLe

-- ---------------------------------------------------------------------------
-- Commands
-- ---------------------------------------------------------------------------

/-- The commands of an `Iterate` are defined: the voltage is the root of the error of the sail, with
its sign, and the position of the rudder is within its limits. The voltage can be converted to an
`int`, as it is when it is received, if it is small enough. -/
def CommandsDefined (s : SimpleControl Exact) (i : Inputs ℝ) : Prop :=
  let e := sailErr id i
  let volts := i.winchKp * SignType.sign e * √|e|
  (∃ sail, (s.iterate id).sailCmds = s.sailCmds ++ [sail] ∧ sail.voltage = real volts ∧
    (|volts| < 2 ^ 31 → (Exact.toInt sail.voltage).isSome = true)) ∧
  ∃ rudder, (s.iterate id).rudderCmds = s.rudderCmds ++ (if s.doRudder then [rudder] else []) ∧
    ∃ pos, rudder.pos = real pos ∧ |pos| ≤ i.maxRudder

/-- A voltage without a value is sent at the goal. -/
theorem sailErr_ne_zero {s : SimpleControl Exact} {i : Inputs ℝ} (hInputs : s.inputs = i.map real)
    (h : CommandsDefined s i) : sailErr id i ≠ 0 := by
  obtain ⟨⟨sail, hSent, hVolts, -⟩, -⟩ := h
  intro hZero
  obtain rfl := (List.cons.inj (List.append_cancel_left hSent)).1
  change voltage id s.inputs = _ at hVolts
  rw [hInputs, undefined_voltage i hZero] at hVolts
  exact Exact.real_ne_undefined hVolts.symm

/-- **Voltage.** Where all that `Iterate` reads are real numbers, its commands are defined if and
only if the sail is not at its goal. -/
theorem commands_iff (s : SimpleControl Exact) (i : Inputs ℝ) (hInputs : s.inputs = i.map real)
    (hMax : 0 ≤ i.maxRudder) : CommandsDefined s i ↔ ¬ SailAtGoal i := by
  rw [← sailErr_eq_zero_iff]
  refine ⟨sailErr_ne_zero hInputs, ?_⟩
  intro hNe
  have hVolts := real_voltage i hNe
  rw [← hInputs] at hVolts
  refine ⟨⟨_, rfl, hVolts, ?_⟩, _, rfl, goalRudder id i, ?_, abs_goalRudder_le i hMax⟩
  · intro hLt
    exact hVolts ▸ Exact.toInt_isSome hLt
  · change goalRudder id s.inputs = _
    rw [hInputs, real_goalRudder]

/-- The constants of the constructor, the wind from ahead, and the sail at an angle. -/
noncomputable def headToWind (sail : ℝ) : SimpleControl Exact :=
  { (init false : SimpleControl Exact) with
    boatState := { internal := { sail := some (real sail) } }
    windX := real (-1) }

noncomputable def headToWindInputs (sail : ℝ) : Inputs ℝ where
  vx := lit 0
  vy := lit 0
  yaw := lit 0
  heel := lit 0
  sail := sail
  rudder := lit 0
  windX := -1
  windY := litf 0
  heading := litf 0
  extraSail := litf 0
  rudderIntegrator := lit 0
  maxRudder := litf (1 / 2)
  rudderKp := litf (1 / 2)
  rudderKi := litf (2 / 100)
  winchKp := litf 13
  sailHeelK := litf 0
  nominalHeel := litf 0
  rigidPortServoPos := litf 15
  rigidStarboardServoPos := litf 85

/-- The boat that points into the wind has defined inputs. -/
theorem headToWind_inputs (sail : ℝ) :
    (headToWind sail).inputs = (headToWindInputs sail).map real := rfl

/-- Its bound on the rudder is not negative. -/
theorem headToWind_maxRudder (sail : ℝ) : 0 ≤ (headToWindInputs sail).maxRudder := by
  show (0 : ℝ) ≤ ((1 / 2 : ℚ) : ℝ)
  norm_num

/-- Head to wind, the sail belongs amidships. -/
theorem headToWind_atGoal_iff (sail : ℝ) :
    SailAtGoal (headToWindInputs sail) ↔ 0 ≡ sail [PMOD 2 * π] := by
  have hWind : Complex.arg ⟨1, 0⟩ = 0 := Complex.arg_one
  have hNorm : Util.normAngle (0 : ℝ) = 0 := by
    rw [Util.normAngle_eq_ite, if_neg pi_pos.le.not_gt, if_neg (by linarith [pi_pos])]
  have hZero : (lit 0 : ℝ) = 0 ∧ (litf 0 : ℝ) = 0 := ⟨Rat.cast_zero, Rat.cast_zero⟩
  unfold SailAtGoal headToWindInputs
  simp only [hZero.1, hZero.2, sub_self, hNorm, neg_neg, hWind]
  norm_num

/-- The sail is amidships with the wind from ahead. -/
theorem commands_undefined_head_to_wind :
    ¬ ∀ (s : SimpleControl Exact) (i : Inputs ℝ), s.inputs = i.map real → 0 ≤ i.maxRudder →
      CommandsDefined s i := by
  intro hAll
  have hNe := sailErr_ne_zero (headToWind_inputs 0)
    (hAll _ _ (headToWind_inputs 0) (headToWind_maxRudder 0))
  exact hNe ((sailErr_eq_zero_iff _).mpr ((headToWind_atGoal_iff 0).mpr
    (AddCommGroup.modEq_refl 0)))

/-- The sail is one radian from there. -/
theorem commands_iff_head_to_wind : CommandsDefined (headToWind 1) (headToWindInputs 1) := by
  refine (commands_iff (headToWind 1) (headToWindInputs 1) (headToWind_inputs 1)
    (headToWind_maxRudder 1)).mpr fun hAt => ?_
  have hEq := Util.eq_of_modEq ((headToWind_atGoal_iff 1).mp hAt) (by
    rw [zero_sub, abs_neg, abs_one]
    linarith [two_le_pi])
  exact zero_ne_one hEq

end Sailbot.Control.SimpleControl
