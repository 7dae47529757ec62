import Sailbot.Control.LineCost
import Sailbot.Lib.Plane

/-!
# The physics of the adaptive controller

The forces and torques of `ControlPhysics` (`control/adaptive.cc`), and the matrix `Y` by which the
controller adapts the numbers `beta`: the force along the boat and the net torque are `Y * beta`.

The arithmetic is any one; the arc tangent is the angle of a vector to the right.

* `ControlPhysics.netForce`           — `NetForce`, with all its results.
* `ControlPhysics.incrementBeta_area` — adapting keeps the area of the rudder positive.
* `ControlPhysics.regressor_linear`   — `Y` does not depend on `beta`, and `Y * beta` is the sum of
  the forces and of the torques.
-/

namespace Sailbot.Control

open Lib
open Lib.Arith (lit)
open scoped Lib.Index

structure AirfoilConstants (R : Type) where
  area     : R
  rho      : R
  c        : R
  k        : R
  drageps  : R
  maxalpha : R

structure BoatConstants (R : Type) where
  sail    : AirfoilConstants R
  keel    : AirfoilConstants R
  rudder  : AirfoilConstants R
  hs      : R
  hk      : R
  hr      : R
  rs      : R
  rk      : R
  rr      : R
  ls      : R
  lr      : R
  hb      : R
  m       : R
  g       : R
  j       : R
  blon    : R
  blat    : R
  bomega  : R
  taubias : R

/-- A force and its direction. -/
structure Force (R : Type) where
  force : R
  gamma : R

/-- What `NetForce` computes. -/
structure NetForce (R : Type) where
  flon    : R
  flat    : R
  taunet  : R
  newheel : R
  yFlon   : Fin 6 → R
  yTau    : Fin 6 → R

namespace ControlPhysics

variable {R : Type} [Arith R]

/-- `M_PI_2`. -/
def halfPi : R := Arith.mPi / lit 2

/-- The constants of the constructor. -/
def init : BoatConstants R where
  sail := {
    area := lit 2, rho := lit (1225 / 1000), c := lit (14 / 10), k := lit (15 / 10)
    drageps := lit 0, maxalpha := halfPi }
  keel := {
    area := lit (3 / 10), rho := lit 1000, c := lit (14 / 10), k := lit 8
    drageps := lit (1 / 10), maxalpha := lit (25 / 100) }
  rudder := {
    area := lit (4 / 100), rho := lit 1000, c := lit (17 / 10), k := lit 5
    drageps := lit (5 / 100), maxalpha := lit (25 / 100) }
  hs := lit (15 / 10)
  hk := lit (-7 / 10)
  hr := lit 0
  rs := lit (1 / 10)
  rk := lit 0
  rr := lit (-9 / 10)
  ls := lit (35 / 100)
  lr := lit 0
  hb := lit (-7 / 10)
  m := lit 25
  g := lit (98 / 10)
  j := lit 10
  blon := lit 15
  blat := lit 25
  bomega := lit 500
  taubias := lit 0

/-- The numbers that are adapted, and a one. -/
def beta (c : BoatConstants R) : Fin 6 → R :=
  ![c.blon, c.bomega, c.rudder.area, c.rs, c.taubias, lit 1]

def setBeta (c : BoatConstants R) (b : Fin 6 → R) : BoatConstants R :=
  { c with
    blon := b 0
    bomega := b 1
    rudder := { c.rudder with area := b 2 }
    rs := b 3
    taubias := b 4 }

def betamin : Fin 6 → R := ![lit 0, lit 0, lit (1 / 100), lit (-1), lit (-10), lit 1]

def betamax : Fin 6 → R := ![lit 1000, lit 10000, lit 1, lit 1, lit 10, lit 1]

/-- Adapts the numbers within their limits. -/
def incrementBeta (c : BoatConstants R) (diff : Fin 6 → R) : BoatConstants R :=
  setBeta c fun i => Arith.min (Arith.max (beta c i + diff i) (betamin i)) (betamax i)

/-- The product of a row and a column. -/
def dot6 (y b : Fin 6 → R) : R :=
  y 0 * b 0 + y 1 * b 1 + y 2 * b 2 + y 3 * b 3 + y 4 * b 4 + y 5 * b 5

-- ---------------------------------------------------------------------------
-- Forces and torques
-- ---------------------------------------------------------------------------

variable (c : BoatConstants R)

/-- The force of an airfoil by its dimensionless magnitude. -/
def airfoilForce (a : AirfoilConstants R) (v mag : R) : R :=
  lit (1 / 2) * a.rho * a.area * v * v * mag

/-- The angle and the force of the sail. -/
def sailAirfoil (alpha v : R) : Force R :=
  let trimalpha := Arith.max (Arith.abs alpha - lit (5 / 100)) (lit 0)
  let mag := c.sail.c * (lit 1 - Arith.exp (-c.sail.k * trimalpha))
  { force := airfoilForce c.sail v mag
    gamma := (halfPi - Arith.abs alpha) * Util.sign alpha }

/-- The angle and the force of the keel or the rudder. -/
def keelAirfoil (a : AirfoilConstants R) (alpha v : R) : Force R :=
  { force := airfoilForce a v (a.k * Arith.min (Arith.abs alpha) a.maxalpha)
    gamma := (halfPi - a.drageps) * Util.sign alpha }

def rudderAirfoil (alpha v : R) : Force R := keelAirfoil c.rudder alpha v

def sailForce (thetaw vw deltas : R) : Force R :=
  let foil := sailAirfoil c (-Util.normAngle (thetaw + deltas + Arith.mPi)) vw
  { force := foil.force, gamma := Util.normAngle (foil.gamma - thetaw) }

def keelForce (thetac vc : R) : Force R :=
  let foil := keelAirfoil c.keel (-Util.normAngle thetac) vc
  { force := foil.force, gamma := Util.normAngle (foil.gamma - thetac + Arith.mPi) }

def rudderForce (thetac vc deltar : R) : Force R :=
  let foil := rudderAirfoil c (-Util.normAngle (thetac + deltar)) vc
  { force := foil.force, gamma := Util.normAngle (foil.gamma - thetac + Arith.mPi) }

def sailTorque (f : Force R) (deltas heel : R) : R :=
  f.force * ((c.rs - c.ls * Arith.cos deltas) * Arith.sin f.gamma * Arith.cos heel +
    c.hk * Arith.cos f.gamma * Arith.sin heel)

def keelTorque (f : Force R) (heel : R) : R :=
  f.force * (c.rk * Arith.sin f.gamma * Arith.cos heel +
    c.hk * Arith.cos f.gamma * Arith.sin heel)

def rudderTorque (f : Force R) (heel : R) : R :=
  f.force * c.rr * Arith.sin f.gamma * Arith.cos heel

def calcHeel (s k : Force R) : R :=
  let tanheel := (s.force * c.hs * Arith.sin s.gamma + k.force * c.hk * Arith.sin k.gamma) /
    (c.hb * c.m * c.g)
  Arith.atan2 tanheel (lit 1)

def netForce (thetaw vw thetac vc deltas deltar omega : R) : NetForce R :=
  let s := sailForce c thetaw vw deltas
  let k := keelForce c thetac vc
  let r := rudderForce c thetac vc deltar
  let heel := calcHeel c s k
  let taus := sailTorque c s deltas heel
  let tauk := keelTorque c k heel
  let taur := rudderTorque c r heel
  let yFlonBlon := -vc * Arith.abs vc * Arith.cos thetac
  let yFlonAr := r.force * Arith.cos r.gamma / c.rudder.area
  let yFlonconst := s.force * Arith.cos s.gamma + k.force * Arith.cos k.gamma
  let yFlon := ![yFlonBlon, lit 0, yFlonAr, lit 0, lit 0, yFlonconst]
  let fBlat := c.blat * vc * Arith.sin thetac
  let yTauBomega := -omega * Arith.abs omega
  let yTauAr := taur / c.rudder.area
  let yTaurs := s.force * Arith.sin s.gamma * Arith.cos heel
  let yTauconst := tauk + (taus - yTaurs * c.rs)
  let yTau := ![lit 0, yTauBomega, yTauAr, yTaurs, lit 1, yTauconst]
  { flon := dot6 yFlon (beta c)
    flat := (s.force * Arith.sin s.gamma + k.force * Arith.sin k.gamma +
      r.force * Arith.sin r.gamma) * Arith.cos heel + fBlat
    taunet := dot6 yTau (beta c)
    newheel := heel
    yFlon := yFlon
    yTau := yTau }

-- ---------------------------------------------------------------------------
-- Exact arithmetic
-- ---------------------------------------------------------------------------

section Exact

open Real

variable (c : BoatConstants ℝ) {b : Fin 6 → ℝ}

/-- Adapting keeps the area of the rudder in its limits, where it is positive. -/
theorem incrementBeta_area (diff : Fin 6 → ℝ) : 0 < (incrementBeta c diff).rudder.area := by
  have hMin : (betamin 2 : ℝ) = 1 / 100 := by
    show ((1 / 100 : ℚ) : ℝ) = 1 / 100
    norm_num
  have hMax : (betamax 2 : ℝ) = 1 := Rat.cast_one
  show 0 < Arith.min (Arith.max _ (betamin 2)) (betamax 2)
  rw [Arith.min_real, Arith.max_real, hMin, hMax]
  exact lt_min (lt_max_of_lt_right (by norm_num)) one_pos

/-- The force of an airfoil is in proportion to its area. -/
theorem airfoilForce_div {a : AirfoilConstants ℝ} (hA : a.area ≠ 0) (v mag : ℝ) :
    airfoilForce a v mag / a.area = 1 / 2 * a.rho * v * v * mag := by
  have hHalf : (lit (1 / 2) : ℝ) = 1 / 2 := by
    rw [Arith.lit_real]
    norm_num
  rw [airfoilForce, hHalf]
  field_simp

/-- The direction of the force of the rudder, and its force by the area, do not depend on what is
adapted. -/
theorem rudderForce_setBeta (hA : c.rudder.area ≠ 0) (hb : b 2 ≠ 0) (thetac vc deltar : ℝ) :
    (rudderForce (setBeta c b) thetac vc deltar).gamma = (rudderForce c thetac vc deltar).gamma ∧
      (rudderForce (setBeta c b) thetac vc deltar).force / b 2 =
        (rudderForce c thetac vc deltar).force / c.rudder.area := by
  refine ⟨rfl, ?_⟩
  have hNew : (setBeta c b).rudder.area ≠ 0 := hb
  exact (airfoilForce_div hNew vc _).trans (airfoilForce_div hA vc _).symm

/-- What the torque of the sail is beside the term with `rs`. -/
theorem sailTorque_sub (f : Force ℝ) (deltas heel : ℝ) :
    sailTorque c f deltas heel - f.force * sin f.gamma * cos heel * c.rs =
      f.force *
        (-(c.ls * cos deltas) * sin f.gamma * cos heel + c.hk * cos f.gamma * sin heel) := by
  show f.force * ((c.rs - c.ls * cos deltas) * sin f.gamma * cos heel +
    c.hk * cos f.gamma * sin heel) - _ = _
  ring

variable (thetaw vw thetac vc deltas deltar omega : ℝ)

/-- The two rows of `Y` for other adapted numbers. -/
theorem netForce_setBeta (hA : c.rudder.area ≠ 0) (hb : b 2 ≠ 0) :
    (netForce (setBeta c b) thetaw vw thetac vc deltas deltar omega).yFlon =
        (netForce c thetaw vw thetac vc deltas deltar omega).yFlon ∧
      (netForce (setBeta c b) thetaw vw thetac vc deltas deltar omega).yTau =
        (netForce c thetaw vw thetac vc deltas deltar omega).yTau := by
  obtain ⟨hGamma, hForce⟩ := rudderForce_setBeta c hA hb thetac vc deltar
  set s := sailForce c thetaw vw deltas
  set k := keelForce c thetac vc
  set heel := calcHeel c s k
  have hAr : (rudderForce (setBeta c b) thetac vc deltar).force *
        cos (rudderForce (setBeta c b) thetac vc deltar).gamma / b 2 =
      (rudderForce c thetac vc deltar).force *
        cos (rudderForce c thetac vc deltar).gamma / c.rudder.area := by
    rw [hGamma, mul_div_right_comm, hForce, mul_div_right_comm]
  have hTauAr : rudderTorque (setBeta c b) (rudderForce (setBeta c b) thetac vc deltar) heel / b 2 =
      rudderTorque c (rudderForce c thetac vc deltar) heel / c.rudder.area := by
    have hTorque : ∀ (f : Force ℝ) (x : ℝ), f.force * c.rr * sin f.gamma * cos heel / x =
        f.force / x * (c.rr * sin f.gamma * cos heel) := fun f x => by ring
    show (rudderForce (setBeta c b) thetac vc deltar).force * c.rr * sin _ * cos heel / b 2 =
      (rudderForce c thetac vc deltar).force * c.rr * sin _ * cos heel / c.rudder.area
    rw [hTorque, hTorque, hGamma, hForce]
  have hConst : sailTorque (setBeta c b) s deltas heel - s.force * sin s.gamma * cos heel * b 3 =
      sailTorque c s deltas heel - s.force * sin s.gamma * cos heel * c.rs :=
    (sailTorque_sub (setBeta c b) s deltas heel).trans (sailTorque_sub c s deltas heel).symm
  constructor
  · exact congrArg (fun ar => ![-vc * Arith.abs vc * cos thetac, lit 0, ar, lit 0, lit 0,
      s.force * cos s.gamma + k.force * cos k.gamma]) hAr
  · exact congrArg₂ (fun ar const => ![lit 0, -omega * Arith.abs omega, ar,
      s.force * sin s.gamma * cos heel, lit 1, keelTorque c k heel + const]) hTauAr hConst

/-- The sum of the forces along the boat. -/
noncomputable def forceAlong : ℝ :=
  let s := sailForce c thetaw vw deltas
  let k := keelForce c thetac vc
  let r := rudderForce c thetac vc deltar
  s.force * cos s.gamma + k.force * cos k.gamma + r.force * cos r.gamma -
    c.blon * vc * |vc| * cos thetac

/-- The sum of the torques. -/
noncomputable def torqueSum : ℝ :=
  let s := sailForce c thetaw vw deltas
  let k := keelForce c thetac vc
  let r := rudderForce c thetac vc deltar
  let heel := calcHeel c s k
  sailTorque c s deltas heel + keelTorque c k heel + rudderTorque c r heel + c.taubias -
    c.bomega * omega * |omega|

/-- `Y * beta` is the force along the boat. -/
theorem netForce_flon (hA : 0 < c.rudder.area) :
    (netForce c thetaw vw thetac vc deltas deltar omega).flon =
      forceAlong c thetaw vw thetac vc deltas deltar := by
  have hZero : (lit 0 : ℝ) = 0 := Rat.cast_zero
  have hOne : (lit 1 : ℝ) = 1 := Rat.cast_one
  let s := sailForce c thetaw vw deltas
  let k := keelForce c thetac vc
  let r := rudderForce c thetac vc deltar
  show -vc * Arith.abs vc * cos thetac * c.blon + lit 0 * c.bomega +
    r.force * cos r.gamma / c.rudder.area * c.rudder.area + lit 0 * c.rs + lit 0 * c.taubias +
    (s.force * cos s.gamma + k.force * cos k.gamma) * lit 1 =
      s.force * cos s.gamma + k.force * cos k.gamma + r.force * cos r.gamma -
        c.blon * vc * |vc| * cos thetac
  rw [hZero, hOne, Arith.abs_real, div_mul_cancel₀ _ hA.ne']
  ring

/-- `Y * beta` is the net torque. -/
theorem netForce_taunet (hA : 0 < c.rudder.area) :
    (netForce c thetaw vw thetac vc deltas deltar omega).taunet =
      torqueSum c thetaw vw thetac vc deltas deltar omega := by
  have hZero : (lit 0 : ℝ) = 0 := Rat.cast_zero
  have hOne : (lit 1 : ℝ) = 1 := Rat.cast_one
  let s := sailForce c thetaw vw deltas
  let k := keelForce c thetac vc
  let r := rudderForce c thetac vc deltar
  let heel := calcHeel c s k
  show lit 0 * c.blon + -omega * Arith.abs omega * c.bomega +
    rudderTorque c r heel / c.rudder.area * c.rudder.area +
    s.force * sin s.gamma * cos heel * c.rs + lit 1 * c.taubias +
    (keelTorque c k heel + (sailTorque c s deltas heel -
      s.force * sin s.gamma * cos heel * c.rs)) * lit 1 =
      sailTorque c s deltas heel + keelTorque c k heel + rudderTorque c r heel + c.taubias -
        c.bomega * omega * |omega|
  rw [hZero, hOne, Arith.abs_real, div_mul_cancel₀ _ hA.ne']
  ring

/-- **Regressor.** `Y` does not depend on the numbers that are adapted, as long as the rudder has an
area. `Y * beta` is the sum of the forces along the boat and the sum of the torques. -/
theorem regressor_linear (hA : 0 < c.rudder.area) :
    (∀ b : Fin 6 → ℝ, 0 < b 2 →
      (netForce (setBeta c b) thetaw vw thetac vc deltas deltar omega).yFlon =
          (netForce c thetaw vw thetac vc deltas deltar omega).yFlon ∧
        (netForce (setBeta c b) thetaw vw thetac vc deltas deltar omega).yTau =
          (netForce c thetaw vw thetac vc deltas deltar omega).yTau) ∧
    (netForce c thetaw vw thetac vc deltas deltar omega).flon =
      dot6 (netForce c thetaw vw thetac vc deltas deltar omega).yFlon (beta c) ∧
    (netForce c thetaw vw thetac vc deltas deltar omega).taunet =
      dot6 (netForce c thetaw vw thetac vc deltas deltar omega).yTau (beta c) ∧
    (netForce c thetaw vw thetac vc deltas deltar omega).flon =
      forceAlong c thetaw vw thetac vc deltas deltar ∧
    (netForce c thetaw vw thetac vc deltas deltar omega).taunet =
      torqueSum c thetaw vw thetac vc deltas deltar omega := by
  have hFlon := netForce_flon c thetaw vw thetac vc deltas deltar omega hA
  have hTaunet := netForce_taunet c thetaw vw thetac vc deltas deltar omega hA
  exact ⟨fun b hb => netForce_setBeta c thetaw vw thetac vc deltas deltar omega hA.ne' hb.ne',
    rfl, rfl, hFlon, hTaunet⟩

/-- The constants of the constructor, after they were adapted. -/
noncomputable def adapted : BoatConstants ℝ :=
  incrementBeta init ![lit 10, lit 20, lit (1 / 2), lit (1 / 4), lit 1, lit 0]

/-- A boat that turns at a speed of two meters per second, with the rudder to one side, in a wind of
five meters per second. -/
theorem regressor_linear_adapted :
    adapted.rudder.area = 54 / 100 ∧
      (netForce adapted 1 5 (1 / 4) 2 (1 / 2) (1 / 5) (1 / 10)).yTau =
        (netForce (init : BoatConstants ℝ) 1 5 (1 / 4) 2 (1 / 2) (1 / 5) (1 / 10)).yTau ∧
      (netForce adapted 1 5 (1 / 4) 2 (1 / 2) (1 / 5) (1 / 10)).yFlon =
        (netForce (init : BoatConstants ℝ) 1 5 (1 / 4) 2 (1 / 2) (1 / 5) (1 / 10)).yFlon ∧
      torqueSum adapted 1 5 (1 / 4) 2 (1 / 2) (1 / 5) (1 / 10) =
        dot6 (netForce (init : BoatConstants ℝ) 1 5 (1 / 4) 2 (1 / 2) (1 / 5) (1 / 10)).yTau
          (beta adapted) ∧
      forceAlong adapted 1 5 (1 / 4) 2 (1 / 2) (1 / 5) =
        dot6 (netForce (init : BoatConstants ℝ) 1 5 (1 / 4) 2 (1 / 2) (1 / 5) (1 / 10)).yFlon
          (beta adapted) := by
  have hInit : (0 : ℝ) < init.rudder.area := by
    show (0 : ℝ) < ((4 / 100 : ℚ) : ℝ)
    norm_num
  have hAdapted : 0 < adapted.rudder.area := incrementBeta_area init _
  obtain ⟨hKeeps, -⟩ := regressor_linear init 1 5 (1 / 4) 2 (1 / 2) (1 / 5) (1 / 10) hInit
  obtain ⟨hFlon, hTau⟩ := hKeeps (fun i => Arith.min (Arith.max
    (beta init i + ![lit 10, lit 20, lit (1 / 2), lit (1 / 4), lit 1, lit 0] i) (betamin i))
    (betamax i)) hAdapted
  obtain ⟨-, hDotFlon, hDotTau, hForce, hTorque⟩ :=
    regressor_linear adapted 1 5 (1 / 4) 2 (1 / 2) (1 / 5) (1 / 10) hAdapted
  refine ⟨?_, hTau, hFlon, ?_, ?_⟩
  · show Arith.min (Arith.max ((lit (4 / 100) : ℝ) + lit (1 / 2)) (lit (1 / 100))) (lit 1) =
      54 / 100
    simp only [Arith.min_real, Arith.max_real, Arith.lit_real]
    norm_num
  · rw [← hTorque, hDotTau]
    exact congrArg (dot6 · _) hTau
  · rw [← hForce, hDotFlon]
    exact congrArg (dot6 · _) hFlon

end Exact

end ControlPhysics

end Sailbot.Control
