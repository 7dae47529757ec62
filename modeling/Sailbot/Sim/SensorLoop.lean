import Sailbot.Control.Angle
import Sailbot.Sensor.StateEstimator
import Sailbot.Sim.FakeAirmar

/-!
# From the simulated weather station to the state estimator

In exact arithmetic, the state estimator gets out of the messages of the simulated weather station
what has gone into them: compass headings, winds by where they come from, and angles to the other
side are turned there and back.

* `SensorLoop.calcNew_modEq`      — without a filter, a new reading is the truth.
* `SensorLoop.estimator_inverse`  — the messages in any order, and the state that is published next.
-/

namespace Sailbot.SensorLoop

open Lib Real Control StateEstimator FakeAirmar
open Lib.Arith (lit litf)

theorem normal_real (std : ℝ) : normal std = 0 := Rat.cast_zero

theorem lit_zero_real : (lit 0 : ℝ) = 0 := Rat.cast_zero

theorem halfPi_real : (Arith.mPi / lit 2 : ℝ) = π / 2 := by
  show π / ((2 : ℚ) : ℝ) = π / 2
  norm_num

theorem lengthf_real (x y : ℝ) : lengthf id x y = √(x ^ 2 + y ^ 2) := by
  show √(x * x + y * y) = _
  rw [sq, sq]

/-- Without a filter, a new reading is the truth. -/
theorem calcNew_modEq (last truth : ℝ) : calcNew id last truth 0 ≡ truth [PMOD 2 * π] := by
  have hOne : (lit 1 - 0 : ℝ) = 1 := by
    rw [sub_zero]
    exact Rat.cast_one
  have hStep : Util.normAngle (truth - last) ≡ truth - last [PMOD 2 * π] := Util.normAngle_modEq _
  have hSum := (Util.normAngle_modEq (last + Util.normAngle (truth - last))).trans
    (hStep.add_left last)
  rw [add_sub_cancel] at hSum
  simp only [calcNew, id_eq, hOne, one_mul]
  exact hSum

theorem kTdt_real : (kTdt id : ℝ) = 0 := by
  show (lit 0 : ℝ) * _ = 0
  rw [Arith.lit_real, Rat.cast_zero, zero_mul]

/-- The heading that is sent is turned back to the yaw. -/
theorem yaw_modEq (last : CanMaster ℝ) (yaw : ℝ) :
    -newHeading id last yaw + Arith.mPi / lit 2 ≡ yaw [PMOD 2 * π] := by
  have hHeading := calcNew_modEq (orZero (last.heading.bind VesselHeading.heading)) (π / 2 - yaw)
  rw [halfPi_real, newHeading, kTdt_real, halfPi_real]
  have hBack := hHeading.sub_left (π / 2)
  rw [sub_sub_cancel] at hBack
  rwa [neg_add_eq_sub]

/-- The velocity comes out of its length and its course. -/
theorem velocityOf_course (vx vy : ℝ) :
    velocityOf id (lengthf id vx vy + normal (lit (1 / 10)))
      (Arith.mPi / lit 2 - Arith.atan2f vy vx + normal (lit (5 / 100))) = (vx, vy) := by
  obtain ⟨hCos, hSin⟩ := polar_atan2 vx vy
  have hBack : (Arith.mPi / lit 2 - (Arith.mPi / lit 2 - Arith.atan2f vy vx) : ℝ) =
      Arith.atan2 vy vx := sub_sub_cancel _ _
  simp only [velocityOf, normal_real, lengthf_real, id_eq, add_zero]
  rw [hBack]
  exact Prod.ext hCos hSin

/-- A wind by its length and the opposite of its direction. -/
theorem neg_polar {windX windY dir a : ℝ}
    (hDir : dir ≡ Arith.atan2 (-windY) (-windX) - a [PMOD 2 * π]) :
    -√(windX ^ 2 + windY ^ 2) * cos dir = cos a * windX + sin a * windY ∧
      -√(windX ^ 2 + windY ^ 2) * sin dir = -(sin a * windX) + cos a * windY := by
  have hUnit := Vec.unit_congr hDir
  have hCos : cos dir = cos (Arith.atan2 (-windY) (-windX) - a) := congrArg Vec.x hUnit
  have hSin : sin dir = sin (Arith.atan2 (-windY) (-windX) - a) := congrArg Vec.y hUnit
  obtain ⟨hX, hY⟩ := polar_sub (-windX) (-windY) a
  rw [neg_sq, neg_sq, ← hCos] at hX
  rw [neg_sq, neg_sq, ← hSin] at hY
  constructor <;> linarith

theorem windOf_trueNorthRef (windSpeed windAngle : ℝ) :
    windOf id windSpeed windAngle .trueNorthRef =
      { x := some (-windSpeed * cos (-windAngle + π / 2)),
        y := some (-windSpeed * sin (-windAngle + π / 2)), z := some 0 } := by
  rw [← halfPi_real, ← lit_zero_real]
  rfl

theorem windOf_apparent (windSpeed windAngle : ℝ) :
    windOf id windSpeed windAngle .apparent =
      { x := some (-windSpeed * cos (-windAngle)), y := some (-windSpeed * sin (-windAngle)),
        z := some 0 } := by
  rw [← lit_zero_real]
  rfl

/-- The true wind comes out of its length and the direction that it comes from. -/
theorem windOf_trueWind (windX windY : ℝ) :
    windOf id (lengthf id windX windY + normal (lit (1 / 10)))
      (Util.normAngle (Arith.mPi / lit 2 - Arith.atan2f (-windY) (-windX) +
        normal (lit (5 / 100)))) .trueNorthRef =
      { x := some windX, y := some windY, z := some 0 } := by
  have hDir : -Util.normAngle (π / 2 - Arith.atan2 (-windY) (-windX)) + π / 2 ≡
      Arith.atan2 (-windY) (-windX) - 0 [PMOD 2 * π] := by
    have hBack := (Util.normAngle_modEq (π / 2 - Arith.atan2 (-windY) (-windX))).sub_left (π / 2)
    rw [sub_sub_cancel] at hBack
    rwa [neg_add_eq_sub, sub_zero]
  obtain ⟨hX, hY⟩ := neg_polar hDir
  rw [cos_zero, sin_zero, one_mul, zero_mul, add_zero] at hX
  rw [cos_zero, sin_zero, one_mul, zero_mul, neg_zero, zero_add] at hY
  have hNorth : (Arith.atan2f (-windY) (-windX) : ℝ) = Arith.atan2 (-windY) (-windX) := rfl
  rw [normal_real, add_zero, lengthf_real, normal_real, add_zero, halfPi_real, hNorth,
    windOf_trueNorthRef, hX, hY]

/-- The apparent wind comes out turned back by the yaw. -/
theorem windOf_apparentWind (wx wy yaw : ℝ) :
    windOf id (√(wx * wx + wy * wy)) (-Util.normAngle (Arith.atan2 (-wy) (-wx) - yaw)) .apparent =
      { x := some (cos yaw * wx + sin yaw * wy), y := some (-(sin yaw * wx) + cos yaw * wy),
        z := some 0 } := by
  obtain ⟨hX, hY⟩ := neg_polar (Util.normAngle_modEq (Arith.atan2 (-wy) (-wx) - yaw))
  rw [← sq, ← sq, windOf_apparent, neg_neg, hX, hY]

/-- The messages of one `Iterate`, as the estimator gets them. -/
noncomputable def sent (s : FakeAirmar ℝ) : List (SensorMsg ℝ) :=
  (s.iterate id).2.map fun m => .can m.1 m.2

variable {s : FakeAirmar ℝ} {euler : EulerAngles ℝ} {windX : ℝ}

/-- Of the messages of one `Iterate`, one is about the heading, one about the velocity, and one
about either wind. -/
theorem sent_sets (hEuler : s.state.euler = some euler) (hWind : s.wind.x = some windX) :
    let yaw := orZero euler.yaw
    let vx := orZero s.state.vel.x
    let vy := orZero s.state.vel.y
    let windY := orZero s.wind.y
    (sent s).filterMap yawOf = [-newHeading id s.last yaw + Arith.mPi / lit 2] ∧
      (sent s).filterMap (velOf id) = [(vx, vy)] ∧
      (sent s).filterMap (windMsgOf id (· == .apparent)) =
        [{ x := some (cos yaw * (windX - vx) + sin yaw * (windY - vy)),
           y := some (-(sin yaw * (windX - vx)) + cos yaw * (windY - vy)), z := some 0 }] ∧
      (sent s).filterMap (windMsgOf id (· != .apparent)) =
        [{ x := some windX, y := some windY, z := some 0 }] := by
  intro yaw vx vy windY
  rw [← velocityOf_course vx vy, ← windOf_apparentWind, ← windOf_trueWind windX windY]
  simp only [sent, FakeAirmar.iterate, hEuler, hWind]
  split <;> exact ⟨rfl, rfl, rfl, rfl⟩

/-- **Sensors.** The messages of one `Iterate` of the weather station, handled in any order, at any
times and in any state of the two, tell the estimator the true yaw up to whole turns and the true
velocity. It publishes the true wind, and the apparent wind as it is seen from the boat; and the
state that it publishes next has this yaw and this velocity. -/
theorem estimator_inverse (s : FakeAirmar ℝ) (t : StateEstimator ℝ) (euler : EulerAngles ℝ)
    (windX : ℝ) (hEuler : s.state.euler = some euler) (hWind : s.wind.x = some windX)
    (msgs : List (Int × SensorMsg ℝ)) (hMsgs : (msgs.map Prod.snd).Perm (sent s))
    (toQuat : Mat3 ℝ → Vec3 ℝ × ℝ) :
    let yaw := orZero euler.yaw
    let vx := orZero s.state.vel.x
    let vy := orZero s.state.vel.y
    let windY := orZero s.wind.y
    let t' := t.handleAll id msgs
    t'.eulerAngles.z ≡ yaw [PMOD 2 * π] ∧ t'.vel.x = vx ∧ t'.vel.y = vy ∧
      t'.trueWindQueue =
        t.trueWindQueue ++ [{ x := some windX, y := some windY, z := some 0 }] ∧
      t'.windQueue = t.windQueue ++
        [{ x := some (cos (-yaw) * (windX - vx) - sin (-yaw) * (windY - vy)),
           y := some (sin (-yaw) * (windX - vx) + cos (-yaw) * (windY - vy)), z := some 0 }] ∧
      ∃ msg, (t'.iterate id toQuat).stateQueue = t'.stateQueue ++ [msg] ∧
        msg.euler.bind EulerAngles.yaw = some t'.eulerAngles.z ∧
        msg.vel.x = some vx ∧ msg.vel.y = some vy := by
  obtain ⟨hYaw, hVel, hApparent, hTrue⟩ := sent_sets hEuler hWind
  obtain ⟨hYaw', hVel', hApparent', hTrue'⟩ :=
    handleAll_sets (s := t) hMsgs hYaw hVel hApparent hTrue
  obtain ⟨hX, hY⟩ := Prod.mk.inj hVel'
  refine ⟨?_, hX, hY, hTrue', ?_, ?_⟩
  · rw [hYaw']
    exact yaw_modEq s.last (orZero euler.yaw)
  · rw [cos_neg, sin_neg, hApparent']
    congr 4 <;> ring
  · refine ⟨_, rfl, rfl, ?_, ?_⟩
    · exact congrArg some hX
    · exact congrArg some hY

/-- A boat that heads north and drifts, and an estimator that knows nothing yet. -/
noncomputable def northward : FakeAirmar ℝ where
  state := { euler := some { yaw := some (π / 2) }, vel := { x := some 1, y := some 2 } }
  wind := { x := some 4, y := some 3 }

def unaware : StateEstimator ℝ where
  eulerAngles := ⟨0, 0, 0⟩
  omega := ⟨0, 0, 0⟩
  pos := ⟨0, 0, 0⟩
  vel := ⟨0, 0, 0⟩
  lastInclinometer := 0
  lastBallast := 0

/-- The messages come in the opposite order. -/
theorem estimator_inverse_north :
    let t := unaware.handleAll id ((sent northward).map fun m => (7, m)).reverse
    t.eulerAngles.z ≡ π / 2 [PMOD 2 * π] ∧ t.vel.x = 1 ∧ t.vel.y = 2 ∧
      t.trueWindQueue = [{ x := some 4, y := some 3, z := some 0 }] ∧
      t.windQueue = [{ x := some 1, y := some (-3), z := some 0 }] ∧
      ∃ msg, (t.iterate id fun _ => (⟨0, 0, 0⟩, 1)).stateQueue = t.stateQueue ++ [msg] ∧
        msg.euler.bind EulerAngles.yaw = some t.eulerAngles.z ∧
        msg.vel.x = some 1 ∧ msg.vel.y = some 2 := by
  intro t
  have hMsgs : ((((sent northward).map fun m => ((7 : Int), m)).reverse).map Prod.snd).Perm
      (sent northward) := by
    rw [List.map_reverse, List.map_map]
    exact (List.reverse_perm _).trans (.of_eq (List.map_id _))
  obtain ⟨hYaw, hX, hY, hTrue, hApparent, hSent⟩ := estimator_inverse northward unaware
    { yaw := some (π / 2) } 4 rfl rfl _ hMsgs fun _ => (⟨0, 0, 0⟩, 1)
  refine ⟨hYaw, hX, hY, hTrue, hApparent.trans ?_, hSent⟩
  have hAhead : cos (-(π / 2)) * (4 - 1) - sin (-(π / 2)) * (3 - 2) = 1 := by
    rw [cos_neg, sin_neg, cos_pi_div_two, sin_pi_div_two]
    norm_num
  have hAbeam : sin (-(π / 2)) * (4 - 1) + cos (-(π / 2)) * (3 - 2) = -3 := by
    rw [cos_neg, sin_neg, cos_pi_div_two, sin_pi_div_two]
    norm_num
  have hQueue : ([⟨some (cos (-(π / 2)) * (4 - 1) - sin (-(π / 2)) * (3 - 2)),
      some (sin (-(π / 2)) * (4 - 1) + cos (-(π / 2)) * (3 - 2)), some 0⟩] : List (Vector3f ℝ)) =
        [⟨some 1, some (-3), some 0⟩] := by
    rw [hAhead, hAbeam]
  exact hQueue

end Sailbot.SensorLoop
