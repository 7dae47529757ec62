import Sailbot.Control.Orthogonalize
import Sailbot.Lib.Transition

/-!
# The simulator of the hull in space

`SimulatorSaoud2013` (`sim/sim_physics.h`, `sim/sim_physics.cc`): the velocity and the angular
velocity of the boat are integrated, and with them its position and its attitude, which is repaired
by `Orthogonalize` after every step. The arithmetic is any one; `inverse6` is the inverse of a
matrix with six rows.

* `Saoud.update`             — one step of the simulation.
* `Saoud.attitude_mirrored`  — without angular velocity, the first step mirrors the attitude, and
  all the others leave it so.
* `Saoud.orthogonalize_never` — no rotation is kept.
-/

namespace Sailbot.Sim

open Lib Control
open Lib.Arith (lit)
open scoped Lib.Index

structure Saoud (R : Type) where
  dt        : R
  deltas    : R
  deltasdot : R
  deltar    : R
  deltardot : R
  x         : Vec3 R
  v         : Vec3 R
  vw        : Vec3 R
  vc        : Vec3 R
  rbi       : Mat3 R
  omega     : Vec3 R

namespace Saoud

section Program

variable {R : Type} [Trig R]

-- ---------------------------------------------------------------------------
-- Parameters
-- ---------------------------------------------------------------------------

def g : R := lit (98 / 10)
def ls : R := lit (15 / 10)
def lr : R := lit (5 / 100)
def hs : R := lit 2
def hr : R := lit 0
def hk : R := lit (-3 / 10)
def rr : R := lit 1
def rs : R := lit 1
def rhoair : R := lit (1225 / 1000)
def rhowater : R := lit 1000
def ss : R := lit 5
def sr : R := lit (5 / 100)
def sk : R := lit (3 / 10)
def c0s : R := lit (2 / 10)
def c1s : R := lit (4 / 10)
def c0r : R := c0s
def c1r : R := c1s
def c0k : R := c0s
def c1k : R := c1s
def m0 : R := lit 40
def nabla : R := m0 / rhowater

/-- The resistances of the hull, all of which the constructor sets to zero in the end. -/
def c1 : Vec3 R := .zero
def c2 : Vec3 R := .zero
def c3 : Vec3 R := .zero
def c4 : Vec3 R := .zero

def j0 : Mat3 R :=
  !![lit 50, lit 0, lit 0;
     lit 0, lit 50, lit 0;
     lit 0, lit 0, lit 30]

/-- The blocks of `MA`. -/
def a11 : Mat3 R := zero3
def a12 : Mat3 R := zero3
def a21 : Mat3 R := zero3
def a22 : Mat3 R := zero3

def ma : Mat6 R := blocks a11 a12 a21 a22

/-- `B_B`. -/
def bB : Vec3 R := ⟨lit 0, lit 0, lit (5 / 10)⟩

def k0 : Vec3 R := ⟨lit 0, lit 0, lit 1⟩

/-- The constructor. -/
def init (dt : R) : Saoud R where
  dt := dt
  deltas := lit (8 / 10)
  deltasdot := lit 0
  deltar := lit 0
  deltardot := lit 0
  x := .zero
  v := .zero
  vw := .zero
  vc := .zero
  rbi := identity3
  omega := .zero

-- ---------------------------------------------------------------------------
-- Frames
-- ---------------------------------------------------------------------------

def j (s : Saoud R) : Vec3 R := col3 s.rbi 1

def xsB (s : Saoud R) : Vec3 R := ⟨rs - ls * Arith.cos s.deltas, -ls * Arith.sin s.deltas, hs⟩

def isB (s : Saoud R) : Vec3 R := ⟨Arith.cos s.deltas, Arith.sin s.deltas, lit 0⟩

def jsB (s : Saoud R) : Vec3 R := ⟨-Arith.sin s.deltas, Arith.cos s.deltas, lit 0⟩

def ksB : Vec3 R := ⟨lit 0, lit 0, lit 1⟩

def is (s : Saoud R) : Vec3 R := mulVec3 s.rbi s.isB

def js (s : Saoud R) : Vec3 R := mulVec3 s.rbi s.jsB

def ks (s : Saoud R) : Vec3 R := mulVec3 s.rbi ksB

def xrB (s : Saoud R) : Vec3 R := ⟨-rr - lr * Arith.cos s.deltar, -lr * Arith.sin s.deltar, hr⟩

def irB (s : Saoud R) : Vec3 R := ⟨Arith.cos s.deltar, Arith.sin s.deltar, lit 0⟩

def jrB (s : Saoud R) : Vec3 R := ⟨-Arith.sin s.deltar, Arith.cos s.deltar, lit 0⟩

def krB : Vec3 R := ⟨lit 0, lit 0, lit 1⟩

def ir (s : Saoud R) : Vec3 R := mulVec3 s.rbi s.irB

def jr (s : Saoud R) : Vec3 R := mulVec3 s.rbi s.jrB

def kr (s : Saoud R) : Vec3 R := mulVec3 s.rbi krB

-- ---------------------------------------------------------------------------
-- Velocities
-- ---------------------------------------------------------------------------

/-- `GGs`. -/
def ggs (s : Saoud R) : Vec3 R := mulVec3 s.rbi s.xsB

def vs (s : Saoud R) : Vec3 R := s.v + s.omega.cross s.ggs - ls * s.deltasdot * s.js

def vas (s : Saoud R) : Vec3 R := s.vs - s.vw

/-- `GGr`. -/
def ggr (s : Saoud R) : Vec3 R := mulVec3 s.rbi s.xrB

def vr (s : Saoud R) : Vec3 R := s.v + s.omega.cross s.ggr - lr * s.deltardot * s.jr

def var (s : Saoud R) : Vec3 R := s.vr - s.vc

/-- `GGk`. -/
def ggk (s : Saoud R) : Vec3 R := mulVec3 s.rbi ⟨lit 0, lit 0, hk⟩

def vk (s : Saoud R) : Vec3 R := s.v + s.omega.cross s.ggk

def vak (s : Saoud R) : Vec3 R := s.vk - s.vc

def omegaB (s : Saoud R) : Vec3 R := mulVec3 (inverse3 s.rbi) s.omega

def vB (s : Saoud R) : Vec3 R := mulVec3 (inverse3 s.rbi) s.v

-- ---------------------------------------------------------------------------
-- Angles of attack
-- ---------------------------------------------------------------------------

/-- The angle of attack for the components of a velocity along, across and up. -/
def attack (along across up : R) : R :=
  let d := Arith.sqrt (Arith.pow along (lit 2) + Arith.pow up (lit 2))
  if Arith.lt (Arith.abs d) (lit (1 / 1000)) then lit 0 else Trig.atan (-across / d)

def alphas (s : Saoud R) : R := attack (s.vas.dot s.is) (s.vas.dot s.js) (s.vas.dot s.ks)

def alphar (s : Saoud R) : R := attack (s.var.dot s.ir) (s.var.dot s.jr) (s.var.dot s.kr)

def alphak (s : Saoud R) : R :=
  let v := mulVec3 s.rbi s.vak
  attack v.x v.y v.z

-- ---------------------------------------------------------------------------
-- Forces
-- ---------------------------------------------------------------------------

/-- `CDparam`. -/
def cdParam (c0 c1 alpha : R) : R := c0 + lit 2 * c1 * Arith.pow (Arith.sin alpha) (lit 2)

/-- `CLparam`. -/
def clParam (c1 alpha : R) : R :=
  (if Arith.lt (Arith.abs alpha) (lit 1) then lit 1 else lit 0) * c1 * Arith.sin (lit 2 * alpha)

/-- The force on a foil across `dir`. -/
def foilForce (lambda cl cd alpha : R) (va dir : Vec3 R) : Vec3 R :=
  -lambda * (cd - cl * Trig.tan alpha) * va.norm * va +
    lambda * cl / Arith.cos alpha * va.squaredNorm * dir

def fs (s : Saoud R) : Vec3 R :=
  foilForce (lit (1 / 2) * rhoair * ss) (clParam c1s s.alphas) (cdParam c0s c1s s.alphas)
    s.alphas s.vas s.js

def taus (s : Saoud R) : Vec3 R := s.ggs.cross s.fs

def fr (s : Saoud R) : Vec3 R :=
  foilForce (lit (1 / 2) * rhowater * sr) (clParam c1r s.alphar) (cdParam c0r c1r s.alphar)
    s.alphar s.var s.jr

def taur (s : Saoud R) : Vec3 R := s.ggr.cross s.fr

def fk (s : Saoud R) : Vec3 R :=
  foilForce (lit (1 / 2) * rhowater * sk) (clParam c1k s.alphak) (cdParam c0k c1k s.alphak)
    s.alphak s.vak s.j

def tauk (s : Saoud R) : Vec3 R := s.ggk.cross s.fk

def fd (s : Saoud R) : Vec3 R :=
  let va := mulVec3 (inverse3 s.rbi) (s.v - s.vc)
  va.cwiseAbs2.cwiseProduct c1 + va.cwiseProduct c2

def taud (s : Saoud R) : Vec3 R :=
  let w := s.omegaB
  w.cwiseAbs2.cwiseProduct c3 + w.cwiseProduct c4

/-- `FBuoy`. -/
def fBuoy : Vec3 R := (nabla * rhowater * g : R) * (k0 : Vec3 R)

def fres : Vec3 R := .zero

def taures (s : Saoud R) : Vec3 R := (mulVec3 s.rbi bB).cross fBuoy

-- ---------------------------------------------------------------------------
-- Motion
-- ---------------------------------------------------------------------------

/-- `MRB`. -/
def mrb : Mat6 R :=
  blocks !![m0, lit 0, lit 0; lit 0, m0, lit 0; lit 0, lit 0, m0] zero3 zero3 j0

/-- `CRB`. -/
def crb (s : Saoud R) : Mat6 R :=
  let wb := s.omegaB
  blocks (smul3 m0 (Util.skew wb)) zero3 zero3 (-Util.skew (mulVec3 j0 wb))

/-- `CA`. -/
def ca (s : Saoud R) : Mat6 R :=
  let off := -Util.skew (mulVec3 a11 s.vB + mulVec3 a12 s.omegaB)
  blocks zero3 off off (-Util.skew (mulVec3 a21 s.vB + mulVec3 a22 s.omegaB))

/-- `MT`. -/
def mt : Mat6 R := mrb + ma

/-- `CT`. -/
def ct (s : Saoud R) : Mat6 R := s.crb + s.ca

variable (inverse6 : Mat6 R → Mat6 R)

def nudot (s : Saoud R) : Vec6 R :=
  let mtinv := inverse6 mt
  let fnet := s.fd + fres + s.fs + s.fr + s.fk
  let taunet := s.taud + s.taures + s.taus + s.taur + s.tauk
  let fnetB := mulVec3 (inverse3 s.rbi) fnet
  let taunetB := mulVec3 (inverse3 s.rbi) taunet
  let forces := concat fnetB taunetB
  let nu := concat s.vB s.omegaB
  mulVec6 mtinv (forces - mulVec6 s.ct nu)

/-- The sail and the rudder move on. -/
def turned (s : Saoud R) : Saoud R := { s with
  deltas := s.deltas + s.deltasdot * s.dt
  deltar := s.deltar + s.deltardot * s.dt }

/-- The angular velocity of the body with which the attitude is integrated. -/
def omegabody (s : Saoud R) : Vec3 R :=
  s.omegaB + lower fun i => s.nudot inverse6 i * s.dt

/-- `Update`, without arguments. -/
def update (s : Saoud R) : Saoud R :=
  let s := s.turned
  let vbody := s.vB + upper fun i => s.nudot inverse6 i * s.dt
  let omegabody := s.omegabody inverse6
  let wx := Util.skew omegabody
  let v := mulVec3 s.rbi vbody
  { s with
    v := v
    omega := mulVec3 s.rbi omegabody
    x := s.x + v * s.dt
    rbi := Util.orthogonalize (s.rbi + scale3 (mul3 s.rbi wx) s.dt) }

inductive Action (R : Type)
  | update (sdot rdot bdot : R)
  | setWind (wind : Vec3 R)

/-- The arguments of `Update`; the ballast does not move. -/
def commanded (s : Saoud R) (sdot rdot : R) : Saoud R := { s with
  deltasdot := sdot
  deltardot := rdot }

def step (s : Saoud R) : Action R → Option (Saoud R)
  | .update sdot rdot _ => some ((s.commanded sdot rdot).update inverse6)
  | .setWind wind => some { s with vw := wind }

end Program

open Matrix

variable {inverse6 : Mat6 ℝ → Mat6 ℝ} {s s' : Saoud ℝ} {a : Action ℝ} {as : List (Action ℝ)}
  {A : Mat3 ℝ}

-- ---------------------------------------------------------------------------
-- Without angular velocity
-- ---------------------------------------------------------------------------

/-- The step integrates no angular velocity. -/
def Still (inverse6 : Mat6 ℝ → Mat6 ℝ) (s : Saoud ℝ) : Action ℝ → Prop
  | .update sdot rdot _ => (s.commanded sdot rdot).turned.omegabody inverse6 = .zero
  | .setWind _ => True

def Action.isUpdate : Action ℝ → Bool
  | .update .. => true
  | .setWind _ => false

/-- Without angular velocity, the attitude is only repaired. -/
theorem update_rbi (hStill : s.turned.omegabody inverse6 = .zero) :
    (s.update inverse6).rbi = Util.orthogonalize s.rbi := by
  have hSkew : Util.skew (.zero : Vec3 ℝ) = 0 := by
    ext i j
    fin_cases i <;> fin_cases j <;> simp [Util.skew]
  have hRate : scale3 (mul3 s.rbi 0) s.dt = 0 := by
    rw [mul3_real, mul_zero]
    ext i j
    exact zero_mul _
  show Util.orthogonalize (s.rbi + scale3 (mul3 s.rbi (Util.skew _)) s.dt) = _
  rw [hStill, hSkew, hRate, add_zero]

/-- What the attitude is after the first step, it is after every step. -/
theorem step_mirrored (hA : A ∈ specialOrthogonalGroup (Fin 3) ℝ) (hs : s.rbi = mirror * A)
    (hStill : Still inverse6 s a) (hstep : step inverse6 s a = some s') : s'.rbi = mirror * A := by
  cases a with
  | update sdot rdot bdot =>
    obtain rfl := Option.some.inj hstep
    rw [update_rbi hStill]
    show Util.orthogonalize s.rbi = _
    rw [hs, Util.orthogonalize_mirror hA]
  | setWind wind =>
    obtain rfl := Option.some.inj hstep
    exact hs

/-- **The attitude without angular velocity.** The first step of the simulation mirrors the
attitude, and it stays so. -/
theorem attitude_mirrored (hA : A ∈ specialOrthogonalGroup (Fin 3) ℝ) (hs : s.rbi = A)
    (hStill : Along (step inverse6) (Still inverse6) s as)
    (hrun : run (step inverse6) s as = some s') :
    s'.rbi = if as.any Action.isUpdate then mirror * A else A := by
  induction as generalizing s with
  | nil =>
    rw [run_nil, Option.some.injEq] at hrun
    exact hrun ▸ hs
  | cons a as ih =>
    obtain ⟨t, ht, hrunT⟩ := run_cons_eq_some.mp hrun
    have hRest := hStill.2 t ht
    cases a with
    | update sdot rdot bdot =>
      have hFirst : t.rbi = mirror * A := by
        obtain rfl := Option.some.inj ht
        rw [update_rbi hStill.1]
        show Util.orthogonalize s.rbi = _
        rw [hs, Util.orthogonalize_rotation hA]
      exact inv_of_run (fun _ _ _ hInv hP hstep => step_mirrored hA hInv hP hstep) hFirst hRest
        hrunT
    | setWind wind =>
      obtain rfl := Option.some.inj ht
      exact ih (s := { s with vw := wind }) hs hRest hrunT

theorem mirror_mul_ne (hA : A ∈ specialOrthogonalGroup (Fin 3) ℝ) : mirror * A ≠ A := by
  intro hEq
  have hDet := congrArg det hEq
  rw [det_mul, det_mirror, (mem_specialOrthogonalGroup_iff.mp hA).2] at hDet
  norm_num at hDet

/-- **No rotation is kept.** `Orthogonalize` changes every rotation, and no attitude survives a step
of the simulation without angular velocity. -/
theorem orthogonalize_never (hA : A ∈ specialOrthogonalGroup (Fin 3) ℝ) :
    Util.orthogonalize A ≠ A ∧
      ∀ (inverse6 : Mat6 ℝ → Mat6 ℝ) (s s' : Saoud ℝ) (as : List (Action ℝ)), s.rbi = A →
        Along (step inverse6) (Still inverse6) s as → run (step inverse6) s as = some s' →
        as.any Action.isUpdate → s'.rbi ≠ A := by
  constructor
  · rw [Util.orthogonalize_rotation hA]
    exact mirror_mul_ne hA
  · intro inverse6 s s' as hs hStill hrun hUpdate
    rw [attitude_mirrored hA hs hStill hrun, if_pos hUpdate]
    exact mirror_mul_ne hA

-- ---------------------------------------------------------------------------
-- At rest
-- ---------------------------------------------------------------------------

/-- Upright and at rest, in no wind and no current. -/
structure AtRest (s : Saoud ℝ) : Prop where
  v_eq     : s.v = .zero
  vw_eq    : s.vw = .zero
  vc_eq    : s.vc = .zero
  omega_eq : s.omega = .zero
  sail     : s.deltasdot = 0
  rudder   : s.deltardot = 0
  upright  : s.rbi 0 2 = 0 ∧ s.rbi 1 2 = 0

theorem foilForce_zero (lambda cl cd alpha : ℝ) (dir : Vec3 ℝ) :
    foilForce lambda cl cd alpha .zero dir = .zero := by
  have hNorm : (.zero : Vec3 ℝ).squaredNorm = 0 := by simp [Vec3.squaredNorm, Vec3.dot]
  rw [foilForce, hNorm, Vec3.smul_zero, mul_zero, Vec3.zero_smul, Vec3.add_zero]

theorem AtRest.taures_eq (h : AtRest s) : s.taures = .zero := by
  obtain ⟨hx, hy⟩ := h.upright
  ext <;> simp [taures, fBuoy, k0, bB, mulVec3, row3, Vec3.dot, Vec3.cross, hx, hy]

/-- No force acts, and there is no acceleration. -/
theorem AtRest.nudot_eq (h : AtRest s) : s.nudot inverse6 = 0 := by
  have hSail : s.vas = .zero := by
    rw [vas, vs, h.v_eq, h.omega_eq, h.sail, h.vw_eq]
    simp
  have hRudder : s.var = .zero := by
    rw [var, vr, h.v_eq, h.omega_eq, h.rudder, h.vc_eq]
    simp
  have hKeel : s.vak = .zero := by
    rw [vak, vk, h.v_eq, h.omega_eq, h.vc_eq]
    simp
  have hFd : s.fd = .zero := by simp [fd, c1, c2]
  have hTaud : s.taud = .zero := by simp [taud, c3, c4]
  have hFs : s.fs = .zero := by rw [fs, hSail, foilForce_zero]
  have hFr : s.fr = .zero := by rw [fr, hRudder, foilForce_zero]
  have hFk : s.fk = .zero := by rw [fk, hKeel, foilForce_zero]
  have hNu : concat s.vB s.omegaB = 0 := by
    rw [vB, omegaB, h.v_eq, h.omega_eq, mulVec3_zero, concat_zero]
  simp only [nudot, hFd, hTaud, hFs, hFr, hFk, hNu, h.taures_eq, taus, taur, tauk, fres,
    Vec3.cross_zero, Vec3.add_zero, mulVec3_zero, concat_zero, mulVec6_zero, sub_zero]

theorem AtRest.omegabody_eq (h : AtRest s) : s.omegabody inverse6 = .zero := by
  rw [omegabody, omegaB, h.nudot_eq, h.omega_eq, mulVec3_zero]
  ext <;> simp [lower]

theorem AtRest.turned (h : AtRest s) : AtRest (s.commanded 0 0).turned where
  v_eq := h.v_eq
  vw_eq := h.vw_eq
  vc_eq := h.vc_eq
  omega_eq := h.omega_eq
  sail := rfl
  rudder := rfl
  upright := h.upright

/-- The boat stays at rest while the sail and the rudder are held. -/
theorem AtRest.update (h : AtRest s) (hOrth : s.rbi ∈ orthogonalGroup (Fin 3) ℝ) :
    AtRest ((s.commanded 0 0).update inverse6) where
  v_eq := by
    have hBody : (s.commanded 0 0).turned.vB + upper (fun i =>
        (s.commanded 0 0).turned.nudot inverse6 i * (s.commanded 0 0).turned.dt) = .zero := by
      rw [h.turned.nudot_eq, vB, h.turned.v_eq, mulVec3_zero]
      ext <;> simp [upper]
    show mulVec3 s.rbi _ = _
    rw [hBody, mulVec3_zero]
  vw_eq := h.vw_eq
  vc_eq := h.vc_eq
  omega_eq := by
    show mulVec3 s.rbi _ = _
    rw [h.turned.omegabody_eq, mulVec3_zero]
  sail := rfl
  rudder := rfl
  upright := by
    rw [update_rbi h.turned.omegabody_eq]
    exact (Util.orthogonalize_upright hOrth).mpr h.upright

/-- A boat at rest has no angular velocity in any number of steps. -/
theorem AtRest.still (h : AtRest s) (hOrth : s.rbi ∈ orthogonalGroup (Fin 3) ℝ) (bdots : List ℝ) :
    Along (step inverse6) (Still inverse6) s (bdots.map (.update 0 0)) := by
  induction bdots generalizing s with
  | nil => trivial
  | cons bdot bdots ih =>
    refine along_cons rfl h.turned.omegabody_eq (ih (h.update hOrth) ?_)
    rw [update_rbi h.turned.omegabody_eq]
    exact Util.orthogonalize_mem hOrth

theorem init_atRest (dt : ℝ) : AtRest (init dt) := by
  constructor <;> simp [init, identity3]

/-- The first step of a simulation. -/
theorem orthogonalize_never_init :
    Util.orthogonalize (1 : Mat3 ℝ) ≠ 1 ∧
      ∀ s', run (step fun a => a⁻¹) (init (1 / 100 : ℝ)) [.update 0 0 0] = some s' →
        s'.rbi ≠ 1 := by
  have hOne : (1 : Mat3 ℝ) ∈ specialOrthogonalGroup (Fin 3) ℝ := one_mem _
  obtain ⟨hNe, hRun⟩ := orthogonalize_never hOne
  refine ⟨hNe, ?_⟩
  intro s' hs'
  have hInit : (init (1 / 100 : ℝ)).rbi = 1 := identity3_real
  have hOrth : (init (1 / 100 : ℝ)).rbi ∈ orthogonalGroup (Fin 3) ℝ := hInit ▸ one_mem _
  exact hRun _ _ _ _ hInit ((init_atRest _).still hOrth [0]) hs' rfl

end Saoud

end Sailbot.Sim
