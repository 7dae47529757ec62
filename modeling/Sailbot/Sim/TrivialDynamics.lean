import Sailbot.Control.LineCost
import Sailbot.Lib.Space
import Sailbot.Lib.Transition
import Sailbot.Sensor.StateEstimator

/-!
# The simulator

`TrivialDynamics` (`sim/sim_physics.h`, `sim/sim_physics.cc`), with which the simulation is run: the
forces on the sail, the rudder, the keel and the hull, and one step of the velocity, the heel and
the yaw. The arithmetic is any one; `toFloat` is the rounding to `float`. A step after which the
attitude is not a number does not return.

* `TrivialDynamics.aeroForces` — the lift and the drag of a foil.
* `TrivialDynamics.update`     — one step.
* `TrivialDynamics.run_attitude` — in every run, the attitude is the rotation by yaw and heel.
-/

namespace Sailbot.Sim

open Lib
open Lib.Arith (lit litf)
open scoped Lib.Index

structure SimDebugMsg (R : Type) where
  fs       : Vector3f R
  fr       : Vector3f R
  fk       : Vector3f R
  fh       : Vector3f R
  fnet     : Vector3f R
  taus     : Vector3f R
  taur     : Vector3f R
  tauk     : Vector3f R
  tauh     : Vector3f R
  tauright : Vector3f R
  taunet   : Vector3f R

structure TrivialDynamics (R : Type) where
  dt         : R
  deltas     : R
  deltar     : R
  deltab     : R
  x          : Vec3 R
  v          : Vec3 R
  yaw        : R
  heel       : R
  rbi        : Mat3 R
  omega      : Vec3 R
  wind       : Vec3 R
  debugQueue : List (SimDebugMsg R) := []

namespace TrivialDynamics

variable {R : Type} [Trig R]

-- ---------------------------------------------------------------------------
-- Parameters
-- ---------------------------------------------------------------------------

def rr : R := lit (-1)
def rs : R := lit (2 / 10)
def rk : R := lit 0
def ls : R := lit (3 / 10)
def lr : R := lit (3 / 100)
def hs : R := lit 1
def hr : R := lit (-2 / 10)
def hk : R := lit (-7 / 10)
def lm : R := lit 1
def mm : R := lit 15
def coM : Vec3 R := ⟨lit 0, lit 0, lit (-5 / 10)⟩
def mass : R := litf 30

/-- `J`. -/
def inertia : Mat3 R :=
  !![lit 25, lit 0, lit 0;
     lit 0, lit 25, lit 0;
     lit 0, lit 0, lit 20]

/-- The constructor. -/
def init (dt : R) : TrivialDynamics R where
  dt := dt
  deltas := lit (13 / 10)
  deltar := lit 0
  deltab := lit 1
  x := .zero
  v := .zero
  yaw := lit 0
  heel := lit 0
  rbi := identity3
  omega := .zero
  wind := .zero

-- ---------------------------------------------------------------------------
-- What the simulation is asked
-- ---------------------------------------------------------------------------

/-- The apparent wind in the frame of the boat. -/
def apparentWind (s : TrivialDynamics R) : Vec3 R := mulVec3 s.rbi.transpose (s.wind - s.v)

def getApparentDir (s : TrivialDynamics R) : R :=
  let wa := s.apparentWind
  Arith.atan2 (-wa.y) (-wa.x)

def getAlphaSail (s : TrivialDynamics R) : R := Control.Util.normAngle (s.getApparentDir - s.deltas)

def getRdotForGoal (s : TrivialDynamics R) (goal : R) : R := lit 5 * (goal - s.deltar)

def getSdotForGoal (s : TrivialDynamics R) (goal : R) : R := lit 5 * (goal - Arith.abs s.deltas)

def setWind (s : TrivialDynamics R) (wind : Vec3 R) : TrivialDynamics R := { s with wind := wind }

/-- The attitude of a heel and a yaw. -/
def attitude (yaw heel : R) : Mat3 R :=
  let ch := Arith.cos heel
  let sh := Arith.sin heel
  let cy := Arith.cos yaw
  let sy := Arith.sin yaw
  !![cy, -sy * ch, sy * sh;
     sy, ch * cy, -cy * sh;
     lit 0, sh, ch]

/-- `set_from_state`. -/
def setFromState (s : TrivialDynamics R) (state : BoatState R) : TrivialDynamics R :=
  let euler := state.euler.getD {}
  { s with
    deltas := orZero state.internal.sail
    deltar := orZero state.internal.rudder
    deltab := orZero state.internal.ballast
    x := s.x * (lit 0 : R)
    v := { s.v with x := orZero state.vel.x, y := orZero state.vel.y }
    yaw := orZero euler.yaw
    heel := orZero euler.roll
    rbi := attitude (orZero euler.yaw) (orZero euler.roll) }

-- ---------------------------------------------------------------------------
-- Forces
-- ---------------------------------------------------------------------------

variable (toFloat : R → R)

def kPeak1 : R := litf (4 / 10)
def kPeak2 : R := litf (8 / 10)

/-- The coefficient of the lift for an angle of attack. -/
def liftCoefficient (alpha maxlift : R) : R :=
  toFloat
    (if Arith.lt kPeak1 alpha then
      if Arith.lt kPeak2 alpha then
        maxlift * (lit 1 - toFloat (alpha - kPeak2) / (Arith.mPi / lit 2 - kPeak2))
      else maxlift
    else toFloat (toFloat (maxlift / kPeak1) * alpha))

def dragCoefficient (alpha mindrag maxdrag : R) : R :=
  toFloat (Arith.pow (toFloat (maxdrag / mindrag)) (toFloat (alpha * lit 2) / Arith.mPi) * mindrag)

/-- `AeroForces`; `delta` and what follows are of type `float`. -/
def aeroForces (s : TrivialDynamics R) (va : Vec3 R)
    (delta rho area mindrag maxdrag maxlift : R) (luff : Bool) : Vec3 R :=
  let alphasigned := toFloat (Control.Util.normAngle (Arith.atan2 (-va.y) (-va.x) - delta))
  let alphasigned := if Arith.isNaN alphasigned then litf 0 else alphasigned
  let alpha := Arith.abs alphasigned
  let signAlpha :=
    if Arith.eq alpha (lit 0) then lit 1 else Arith.trunc (toFloat (alphasigned / alpha))
  let alpha := if luff && Arith.lt alpha (lit (1 / 4)) then litf (1 / 4) else alpha
  let liftrot : Mat3 R :=
    !![lit 0 * signAlpha, lit (-1) * signAlpha, lit 0;
       lit 1 * signAlpha, lit 0 * signAlpha, lit 0;
       lit 0, lit 0, lit 1]
  let cl := liftCoefficient toFloat alpha maxlift
  let cd := dragCoefficient toFloat alpha mindrag maxdrag
  let common := toFloat (lit (1 / 2) * rho * area * va.squaredNorm)
  let va := if Arith.lt (lit (5 / 1000)) (toFloat va.squaredNorm) then va.normalized else va
  let lift := mulVec3 (smul3 (toFloat (cl * common)) liftrot) va
  let drag := toFloat (cd * common) * va
  let force := lift + drag
  { force with y := force.y * s.rbi 2 2 }

/-- The water, as it comes at the boat. -/
def waterFlow (s : TrivialDynamics R) : Vec3 R :=
  { mulVec3 s.rbi.transpose (-s.v) with z := lit 0 }

def sailForces (s : TrivialDynamics R) : Vec3 R :=
  s.aeroForces toFloat { s.apparentWind with z := lit 0 } (toFloat s.deltas) (litf (1225 / 1000))
    (litf 4) (litf (5 / 100)) (litf 1) (litf (15 / 10)) false

def rudderForces (s : TrivialDynamics R) : Vec3 R :=
  s.aeroForces toFloat s.waterFlow (toFloat (s.deltar * lit (15 / 10))) (litf 1000)
    (litf (7 / 100)) (litf (1 / 100)) (litf (5 / 100)) (litf (17 / 10)) false

def keelForces (s : TrivialDynamics R) : Vec3 R :=
  s.aeroForces toFloat s.waterFlow (litf 0) (litf 1000)
    (litf (4 / 10)) (litf (2 / 100)) (litf (11 / 10)) (litf 2) false

def hullForces (s : TrivialDynamics R) : Vec3 R :=
  s.aeroForces toFloat s.waterFlow (litf 0) (litf 1000)
    (litf (1 / 10)) (litf (1 / 100)) (litf (2 / 10)) (litf 0) false

-- ---------------------------------------------------------------------------
-- Torques
-- ---------------------------------------------------------------------------

def sailTorques (s : TrivialDynamics R) (f : Vec3 R) : Vec3 R :=
  Vec3.cross ⟨rs - ls * Arith.cos s.deltas, -ls * Arith.sin s.deltas, hs⟩ f

def rudderTorques (s : TrivialDynamics R) (f : Vec3 R) : Vec3 R :=
  Vec3.cross ⟨rr - lr * Arith.cos s.deltar, -lr * Arith.sin s.deltar, hr⟩ f

def keelTorques (f : Vec3 R) : Vec3 R := Vec3.cross ⟨rk, lit 0, hk⟩ f

def hullTorques (s : TrivialDynamics R) : Vec3 R :=
  let c : Mat3 R :=
    !![lit 100, lit 0, lit 0;
       lit 0, lit 200, lit 0;
       lit 0, lit 0, lit 200]
  mulVec3 (-c) (s.omega.cwiseProduct s.omega.cwiseAbs)

def rightingTorques (s : TrivialDynamics R) (heel : R) : Vec3 R :=
  let g : R := litf (98 / 10)
  let kMaxTorque := toFloat (toFloat (mass * g) * (coM : Vec3 R).z)
  let kMovableSlope : R := lit (3333 / 10000)
  let tauballast :=
    mm * lm * g * Arith.sin s.deltab * Arith.cos (heel + kMovableSlope * s.deltab)
  let kAccountForPitch := toFloat (lit 0 * s.rbi 2 0)
  ⟨s.rbi 2 1 * kMaxTorque + tauballast, kAccountForPitch, lit 0⟩

-- ---------------------------------------------------------------------------
-- One step
-- ---------------------------------------------------------------------------

/-- The direction of the apparent wind, as `Update` finds it. -/
def apparentWindDir (s : TrivialDynamics R) : R :=
  Control.Util.normAngle (Arith.atan2 (s.wind.y - s.v.x) (s.wind.x - s.v.y) - s.yaw)

/-- The sail, which is set to the side that the wind blows to. -/
def sailFor (s : TrivialDynamics R) (deltasIn : R) : R :=
  let deltas := Arith.max (Control.Util.normAngle deltasIn) (lit 0)
  let deltas := if Arith.lt (lit 0) s.apparentWindDir then -deltas else deltas
  Control.Util.normAngle deltas

/-- The beginning of `Update`: the sail, the rudder and the ballast. -/
def actuated (s : TrivialDynamics R) (deltasIn deltarIn : R) : TrivialDynamics R := { s with
  deltas := s.sailFor deltasIn
  deltar := Arith.min (Arith.max deltarIn (lit (-6 / 10))) (lit (6 / 10))
  deltab := Arith.min (Arith.max s.deltab (lit (-15 / 10))) (lit (15 / 10)) }

/-- `Update` of the positions of the sail and of the rudder. -/
def update (s : TrivialDynamics R) (deltasIn deltarIn : R) : Option (TrivialDynamics R) :=
  let s := s.actuated deltasIn deltarIn
  let fs := s.sailForces toFloat
  let fr := s.rudderForces toFloat
  let fk := s.keelForces toFloat
  let fh := s.hullForces toFloat
  let fnet := fs + fr + fk + fh
  let taus := s.sailTorques fs
  let taur := s.rudderTorques fr
  let tauk := keelTorques fk
  let tauh := s.hullTorques
  let tauright := s.rightingTorques toFloat (Trig.asin (s.rbi 2 1))
  let tau := taus + taur + tauk + tauh + tauright
  let fnet := mulVec3 s.rbi fnet
  let omegadot := mulVec3 (inverse3 inertia) tau * s.dt
  let omega := s.omega + omegadot
  let yawdot := (mulVec3 s.rbi omega).z
  let heel := Control.Util.normAngle (s.heel + omega.x * s.dt)
  let yaw := Control.Util.normAngle (s.yaw + yawdot * s.dt)
  let v := { s.v + fnet / (mass : R) * s.dt with z := lit 0 }
  let rbi := attitude yaw heel
  let toProto := StateEstimator.toProto toFloat
  let msg : SimDebugMsg R := {
    fs := toProto fs, fr := toProto fr, fk := toProto fk, fh := toProto fh, fnet := toProto fnet,
    taus := toProto taus, taur := toProto taur, tauk := toProto tauk, tauh := toProto tauh,
    tauright := toProto tauright, taunet := toProto tau }
  if Arith.isNaN (rbi 0 0) then none
  else some { s with
    heel := heel
    yaw := yaw
    omega := ⟨omega.x, yawdot * Arith.sin heel, yawdot * Arith.cos heel⟩
    v := v
    rbi := rbi
    x := s.x + v * s.dt
    debugQueue := s.debugQueue ++ [msg] }

/-- `Update` of the rates. -/
def updateRates (s : TrivialDynamics R) (sdot rdot bdot : R) : Option (TrivialDynamics R) :=
  let s := { s with
    deltas := Arith.abs s.deltas + sdot * s.dt
    deltar := s.deltar + rdot * s.dt
    deltab := s.deltab + bdot * s.dt }
  s.update toFloat s.deltas s.deltar

inductive Action (R : Type)
  | update (deltasIn deltarIn : R)
  | updateRates (sdot rdot bdot : R)
  | setWind (wind : Vec3 R)
  | setFromState (state : BoatState R)

def step (s : TrivialDynamics R) : Action R → Option (TrivialDynamics R)
  | .update deltasIn deltarIn => s.update toFloat deltasIn deltarIn
  | .updateRates sdot rdot bdot => s.updateRates toFloat sdot rdot bdot
  | .setWind wind => some (s.setWind wind)
  | .setFromState state => some (s.setFromState state)

-- ---------------------------------------------------------------------------
-- The attitude
-- ---------------------------------------------------------------------------

variable {toFloat} {s s' : TrivialDynamics R} {deltasIn deltarIn : R}

/-- What the rest of the step leaves of the sail and of the attitude. -/
theorem update_eq_some (h : s.update toFloat deltasIn deltarIn = some s') :
    s'.deltas = s.sailFor deltasIn ∧ s'.rbi = attitude s'.yaw s'.heel := by
  unfold update at h
  dsimp only at h
  split at h
  case isTrue => cases h
  case isFalse =>
    obtain rfl := Option.some.inj h
    exact ⟨rfl, rfl⟩

/-- The rest of the step keeps the rudder and the ballast, and the boat stays on the water. -/
theorem update_kept (h : s.update toFloat deltasIn deltarIn = some s') :
    s'.deltar = (s.actuated deltasIn deltarIn).deltar ∧
      s'.deltab = (s.actuated deltasIn deltarIn).deltab ∧ s'.dt = s.dt ∧ s'.v.z = lit 0 := by
  unfold update at h
  dsimp only at h
  split at h
  case isTrue => cases h
  case isFalse =>
    obtain rfl := Option.some.inj h
    exact ⟨rfl, rfl, rfl, rfl⟩

theorem step_attitude {a : Action R} (h : s.rbi = attitude s.yaw s.heel)
    (hstep : step toFloat s a = some s') : s'.rbi = attitude s'.yaw s'.heel := by
  cases a with
  | update => exact (update_eq_some hstep).2
  | updateRates => exact (update_eq_some hstep).2
  | setWind =>
    obtain rfl := Option.some.inj hstep
    exact h
  | setFromState =>
    obtain rfl := Option.some.inj hstep
    rfl

theorem attitude_real (yaw heel : ℝ) : attitude yaw heel = rotZ yaw * rotX heel := by
  rw [rotZ_real, rotX_real]
  ext i j
  fin_cases i <;> fin_cases j <;>
    simp [attitude, Matrix.mul_apply, Fin.sum_univ_three] <;> first | rfl | exact mul_comm _ _

theorem attitude_zero (yaw : ℝ) : attitude yaw 0 = rotZ yaw := by
  have hZero : rotX (0 : ℝ) = 1 := by
    rw [rotX_real, Real.cos_zero, Real.sin_zero, neg_zero]
    exact Matrix.one_fin_three.symm
  rw [attitude_real, hZero, mul_one]

/-- **The attitude of the simulated boat.** In every run of the simulation, the attitude is the
rotation by the heel and by the yaw. -/
theorem run_attitude {toFloat : ℝ → ℝ} {dt : ℝ} {s : TrivialDynamics ℝ} {as : List (Action ℝ)}
    (hrun : run (step toFloat) (init dt) as = some s) :
    s.rbi = rotZ s.yaw * rotX s.heel ∧ s.rbi ∈ Matrix.specialOrthogonalGroup (Fin 3) ℝ := by
  have hInit : (init dt).rbi = attitude (init dt).yaw (init dt).heel := by
    show identity3 = attitude (lit 0) (lit 0)
    rw [identity3_real, Arith.lit_real, Rat.cast_zero, attitude_zero, rotZ_real, Real.cos_zero,
      Real.sin_zero, neg_zero, Matrix.one_fin_three]
  have hAttitude : s.rbi = attitude s.yaw s.heel :=
    inv_of_run_forall (fun _ _ _ => step_attitude) hInit hrun
  rw [attitude_real] at hAttitude
  exact ⟨hAttitude, hAttitude ▸ mul_mem (rotZ_mem _) (rotX_mem _)⟩

end TrivialDynamics

end Sailbot.Sim
