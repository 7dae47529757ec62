import Sailbot.Control.AdaptiveSearch
import Sailbot.Lib.Transition
import Sailbot.Sensor.Messages

/-!
# The adaptive controller

`AdaptiveControl` (`control/adaptive.cc`). Every `Iterate` searches for positions of sail and
rudder, adapts the numbers of its physics by the difference between the heading of the boat and a
reference, and moves the reference towards the heading that is asked for.

The matrix `Kbeta` has its diagonal set only; the other entries are what the memory holds, and they
are a parameter here. `toFloat` is the rounding to `float`. Every handler and every `Iterate` is one
step. What is said of all runs is said in exact arithmetic, where also these entries are numbers.

* `AdaptiveControl.step`    — one `Iterate`, or one message.
* `AdaptiveControl.Bounded` — the limits that hold in every run.
* `AdaptiveControl.adaptive_bounded`, `adaptive_commands` — all runs, and what an `Iterate` sends.
-/

namespace Sailbot.Control

open Lib
open Lib.Arith (lit litf)
open ControlPhysics
open scoped Lib.Index

namespace AdaptiveControl

/-- The constants that `AdaptiveControl` uses. -/
structure Consts (R : Type) where
  winchKp  : Option R := none
  rudderKp : Option R := none
  qf       : Option R := none

structure SailCmd (R : Type) where
  voltage : R
  pos     : R

end AdaptiveControl

open AdaptiveControl

structure AdaptiveControl (R : Type) where
  boatState   : BoatState R := {}
  consts      : Consts R
  physics     : BoatConstants R
  weights     : CostWeights R
  kbeta       : Fin 6 → Fin 6 → R
  heading     : R
  yaw         : R
  thetaw      : R
  vw          : R
  thetac      : R
  vc          : R
  omega       : R
  yawRef      : R
  omegaRef    : R
  sailCmds    : List (AdaptiveControl.SailCmd R) := []
  rudderCmds  : List R := []
  constsQueue : List (Consts R) := []

namespace AdaptiveControl

variable {R : Type} [Arith R]

def dt : R := litf (5 / 100)

def kref : R := lit (99 / 100)
def kmaxExpVel : R := lit (2 / 10)
def kmaxExpAcc : R := lit (2 / 10)

/-- `Kbeta.diagonal()`. -/
def kbetaDiagonal : Fin 6 → R := ![lit 0, lit 0, lit 0, lit (4 / 1000), lit 0, lit 0]

variable (toFloat : R → R)

/-- The node after its constructor, for the entries of `Kbeta` beside the diagonal. -/
def init (others : Fin 6 → Fin 6 → R) : AdaptiveControl R :=
  let consts : Consts R := {
    winchKp := some (litf 13), rudderKp := some (litf 25), qf := some (litf 1) }
  { consts := consts
    physics := ControlPhysics.init
    weights := initWeights
    kbeta := fun i j => if i = j then kbetaDiagonal i else others i j
    heading := toFloat (lit 2 * Arith.mPi / lit 4)
    yaw := litf 0
    thetaw := litf 0
    vw := litf 0
    thetac := litf 0
    vc := litf 0
    omega := litf 0
    yawRef := litf 0
    omegaRef := litf 0
    constsQueue := [consts] }

-- ---------------------------------------------------------------------------
-- Iterate
-- ---------------------------------------------------------------------------

variable (s : AdaptiveControl R)

/-- `Adaptor`: how fast the numbers are adapted. -/
def adaptor (deltas deltar : R) : Fin 6 → R :=
  let y := netForce s.physics s.thetaw s.vw s.thetac s.vc deltas deltar (lit 0)
  let lag := Util.normAngle (toFloat (s.yawRef - s.yaw))
  let sigma0 : R := lit 0 + (lit 1 * lit 0 + lit 0 * lag)
  let sigma1 := toFloat (s.omegaRef - s.omega) + (lit 0 * lit 0 + lit 1 * lag)
  fun i =>
    dot6 (fun j => -s.kbeta i j) y.yFlon * sigma0 + dot6 (fun j => -s.kbeta i j) y.yTau * sigma1

/-- The velocity that is expected for the reference. -/
def expVel (heading yawRef : R) : R :=
  Util.clip (Util.normAngle (toFloat (heading - yawRef))) (-kmaxExpVel) kmaxExpVel

/-- The acceleration that is expected for the reference. -/
def expAcc (expVel omegaRef : R) : R :=
  Util.clip (Util.normAngle (expVel - omegaRef)) (-kmaxExpAcc) kmaxExpAcc

/-- `UpdateYawRef`. -/
def updateYawRef : AdaptiveControl R :=
  let yawRef := toFloat (Util.normAngle
    (kref * Util.normAngle (toFloat (s.yawRef - s.yaw)) + s.yaw))
  let omegaRef := toFloat (kref * s.omegaRef + (lit 1 - kref) * s.omega)
  let vel := expVel toFloat s.heading yawRef
  let acc := expAcc vel omegaRef
  let (yawRef, omegaRef) : R × R :=
    if Arith.lt (kmaxExpVel : R) (lit 0) then (s.heading, omegaRef)
    else if Arith.lt (kmaxExpAcc : R) (lit 0) then (toFloat (yawRef + vel * dt), omegaRef)
    else (toFloat (toFloat (yawRef + toFloat (omegaRef * dt)) + lit (1 / 2) * acc * dt * dt),
      toFloat (omegaRef + acc * dt))
  { s with yawRef := toFloat (Util.normAngle yawRef), omegaRef := omegaRef }

/-- The torque that is asked for. -/
def taug : R :=
  orZero s.consts.rudderKp * Util.normAngle (toFloat (s.heading - s.yaw)) - lit 15 * s.omega

/-- `Controller`, with the positions of sail and rudder unless it fails. A search that succeeds and
writes no position has no result. -/
def controller : Option (AdaptiveControl R × Option (R × R)) :=
  let found := globalMaxForceForTorque s.weights s.physics s.thetaw s.vw s.thetac s.vc
    (taug toFloat s) .quadratic 20
  if found.success then
    found.best.map fun t =>
      let betadot := adaptor toFloat s t.deltas t.deltar
      let adapted := { s with physics := incrementBeta s.physics fun i => betadot i * dt }
      (updateYawRef toFloat adapted, some (t.deltas, t.deltar))
  else some (s, none)

/-- The commands for sail and rudder, and the constants, are sent. -/
def send (deltas deltar : R) : AdaptiveControl R :=
  -- the sign of the sail is lost
  let deltas := Arith.abs deltas
  let sailErr := Util.normAngle (deltas - orZero s.boatState.internal.sail)
  let sailMsg : SailCmd R := {
    voltage := toFloat (orZero s.consts.winchKp * sailErr / Arith.sqrt (Arith.abs sailErr))
    pos := toFloat deltas }
  { s with
    sailCmds := s.sailCmds ++ [sailMsg]
    rudderCmds := s.rudderCmds ++ [toFloat (Util.clip deltar (lit (-1 / 2)) (lit (1 / 2)))]
    constsQueue := s.constsQueue ++ [s.consts] }

/-- One `Iterate`. -/
def iterate : Option (AdaptiveControl R) :=
  (controller toFloat s).map fun r =>
    let pos := r.2.getD (lit 0, lit 0)
    send toFloat r.1 pos.1 pos.2

-- ---------------------------------------------------------------------------
-- Messages
-- ---------------------------------------------------------------------------

inductive AdaptiveAction (R : Type)
  | iterate
  | boatState (msg : BoatState R)
  | wind (msg : Vector3f R)
  | headingCmd (heading : Option R)
  | controlConsts (msg : Consts R)
  | sbusValue

/-- The leeway is computed and then set to zero. -/
def onBoatState (msg : BoatState R) : AdaptiveControl R :=
  let vx := orZero msg.vel.x
  let vy := orZero msg.vel.y
  { s with
    boatState := msg
    yaw := orZero msg.eulerAngles.yaw
    omega := orZero msg.omega.z
    thetac := lit 0
    vc := toFloat (Arith.sqrt (vx * vx + vy * vy)) }

def onWind (msg : Vector3f R) : AdaptiveControl R :=
  let wx := orZero msg.x
  let wy := orZero msg.y
  { s with
    thetaw := toFloat (Util.normAngle (Arith.atan2 (-wy) wx))
    vw := toFloat (Arith.sqrt (wy * wy + wx * wx) * lit (16 / 10)) }

def onConsts (msg : Consts R) : AdaptiveControl R :=
  match msg.qf with
  | some qf => { s with consts := msg, weights := { s.weights with qf := qf } }
  | none => s

def step (s : AdaptiveControl R) : AdaptiveAction R → Option (AdaptiveControl R)
  | .iterate => iterate toFloat s
  | .boatState msg => some (onBoatState toFloat s msg)
  | .wind msg => some (onWind toFloat s msg)
  | .headingCmd heading => some { s with heading := heading.getD s.heading }
  | .controlConsts msg => some (onConsts s msg)
  | .sbusValue => some s

-- ---------------------------------------------------------------------------
-- Limits
-- ---------------------------------------------------------------------------

section Exact

open Real

/-- The numbers that are adapted are within their limits, and the others are those of the
constructor. -/
structure Adapted (c : BoatConstants ℝ) : Prop where
  limits : ∀ i, betamin i ≤ beta c i ∧ beta c i ≤ betamax i
  others : setBeta c (beta (ControlPhysics.init : BoatConstants ℝ)) = ControlPhysics.init

/-- The limits that hold in every run in which the boat turns by at most `w`. -/
structure Bounded (w : ℝ) (s : AdaptiveControl ℝ) : Prop where
  adapted  : Adapted s.physics
  thetac   : s.thetac = 0
  omega    : |s.omega| ≤ w
  yawRef   : |s.yawRef| ≤ π
  omegaRef : |s.omegaRef| ≤ w + 1
  sails    : ∀ cmd ∈ s.sailCmds, 0 ≤ cmd.pos ∧ cmd.pos ≤ π / 2
  rudders  : ∀ pos ∈ s.rudderCmds, |pos| ≤ 1 / 4

/-- The limits are in order. -/
theorem betamin_le_betamax (i : Fin 6) : (betamin i : ℝ) ≤ betamax i := by
  fin_cases i <;> exact Rat.cast_le.mpr (by norm_num)

/-- Adapting keeps the numbers within their limits. -/
theorem adapted_incrementBeta {c : BoatConstants ℝ} (h : Adapted c) (diff : Fin 6 → ℝ) :
    Adapted (incrementBeta c diff) := by
  refine ⟨?_, h.others⟩
  have hClip : ∀ i : Fin 6, betamin i ≤ Arith.min (Arith.max (beta c i + diff i) (betamin i))
      (betamax i) ∧ Arith.min (Arith.max (beta c i + diff i) (betamin i)) (betamax i) ≤
        betamax i := by
    intro i
    rw [Arith.min_real, Arith.max_real]
    exact ⟨le_min (le_max_right _ _) (betamin_le_betamax i), min_le_right _ _⟩
  intro i
  fin_cases i
  · exact hClip 0
  · exact hClip 1
  · exact hClip 2
  · exact hClip 3
  · exact hClip 4
  · exact ⟨le_rfl, le_rfl⟩

/-- The numbers of the constructor are within their limits. -/
theorem adapted_init : Adapted ControlPhysics.init := by
  refine ⟨?_, rfl⟩
  intro i
  fin_cases i <;> exact ⟨Rat.cast_le.mpr (by norm_num), Rat.cast_le.mpr (by norm_num)⟩

/-- What is not adapted. -/
theorem Adapted.rudder {c : BoatConstants ℝ} (h : Adapted c) :
    c.rudder.maxalpha = 1 / 4 ∧ c.rudder.drageps = 1 / 20 ∧ c.rudder.rho = 1000 ∧
      c.rudder.k = 5 ∧ c.rr = -9 / 10 := by
  have hOthers := h.others
  have hRudder := congrArg BoatConstants.rudder hOthers
  have hRr : c.rr = lit (-9 / 10) := congrArg BoatConstants.rr hOthers
  have hMax : c.rudder.maxalpha = lit (25 / 100) := congrArg AirfoilConstants.maxalpha hRudder
  have hEps : c.rudder.drageps = lit (5 / 100) := congrArg AirfoilConstants.drageps hRudder
  have hRho : c.rudder.rho = lit 1000 := congrArg AirfoilConstants.rho hRudder
  have hK : c.rudder.k = lit 5 := congrArg AirfoilConstants.k hRudder
  rw [hRr, hMax, hEps, hRho, hK]
  simp only [Arith.lit_real]
  norm_num

-- ---------------------------------------------------------------------------
-- The reference
-- ---------------------------------------------------------------------------

/-- The part of the reference that is kept, and what it may be moved by in one round. -/
theorem reference_constants :
    (kref : ℝ) = 99 / 100 ∧ (kmaxExpVel : ℝ) = 1 / 5 ∧ (kmaxExpAcc : ℝ) = 1 / 5 ∧
      (dt : ℝ) = 1 / 20 := by
  refine ⟨?_, ?_, ?_, ?_⟩
  · show ((99 / 100 : ℚ) : ℝ) = _
    norm_num
  · show ((2 / 10 : ℚ) : ℝ) = _
    norm_num
  · show ((2 / 10 : ℚ) : ℝ) = _
    norm_num
  · show ((5 / 100 : ℚ) : ℝ) = _
    norm_num

/-- The reference for the turn, one round later. -/
theorem updateYawRef_omegaRef (s : AdaptiveControl ℝ) : ∃ vel omegaRef : ℝ,
    (updateYawRef id s).omegaRef =
      99 / 100 * s.omegaRef + (1 - 99 / 100) * s.omega + expAcc vel omegaRef * (1 / 20) := by
  obtain ⟨hKref, hVel, hAcc, hDt⟩ := reference_constants
  have hZero : (lit 0 : ℝ) = 0 := Rat.cast_zero
  have hOne : (lit 1 : ℝ) = 1 := Rat.cast_one
  have hVelPos : ¬ Arith.lt (kmaxExpVel : ℝ) (lit 0) = true := by
    rw [Arith.lt_real, hVel, hZero]
    norm_num
  have hAccPos : ¬ Arith.lt (kmaxExpAcc : ℝ) (lit 0) = true := by
    rw [Arith.lt_real, hAcc, hZero]
    norm_num
  refine ⟨expVel id s.heading
    (Util.normAngle (kref * Util.normAngle (s.yawRef - s.yaw) + s.yaw)),
    kref * s.omegaRef + (lit 1 - kref) * s.omega, ?_⟩
  rw [← hKref, ← hDt, ← hOne]
  unfold updateYawRef
  dsimp only
  rw [if_neg hVelPos, if_neg hAccPos]
  rfl

/-- The reference turns at most a little faster than the boat. -/
theorem abs_updateYawRef_omegaRef_le {w : ℝ} {s : AdaptiveControl ℝ} (hOmega : |s.omega| ≤ w)
    (hRef : |s.omegaRef| ≤ w + 1) : |(updateYawRef id s).omegaRef| ≤ w + 1 := by
  obtain ⟨vel, omegaRef, hNew⟩ := updateYawRef_omegaRef s
  obtain ⟨-, -, hAcc, -⟩ := reference_constants
  have hClip : -(1 / 5) ≤ expAcc vel omegaRef ∧ expAcc vel omegaRef ≤ 1 / 5 := by
    rw [expAcc, hAcc]
    exact Util.clip_mem (by norm_num) _
  obtain ⟨hOmegaLow, hOmegaHigh⟩ := abs_le.mp hOmega
  obtain ⟨hRefLow, hRefHigh⟩ := abs_le.mp hRef
  rw [hNew, abs_le]
  constructor <;> linarith [hClip.1, hClip.2]

-- ---------------------------------------------------------------------------
-- One step
-- ---------------------------------------------------------------------------

/-- The cheapest one of the twenty trials in the state `s`. -/
structure Cheapest (s : AdaptiveControl ℝ) (t : Trial ℝ) : Prop where
  isTrial : ∃ ii : Nat, ii < 20 ∧ trial s.weights s.physics s.thetaw s.vw s.thetac s.vc
    (taug id s) .quadratic 20 ii = some t
  least   : ∀ ii : Nat, ii < 20 → ∃ t', trial s.weights s.physics s.thetaw s.vw s.thetac s.vc
    (taug id s) .quadratic 20 ii = some t' ∧ t.cost ≤ t'.cost

/-- An `Iterate` sends the positions of the cheapest trial, and it changes the numbers that are
adapted and the reference. -/
theorem iterate_cases {w : ℝ} {s : AdaptiveControl ℝ} (h : Bounded w s) :
    ∃ t diff, Cheapest s t ∧ iterate id s =
      some (send id (updateYawRef id { s with physics := incrementBeta s.physics diff })
        t.deltas t.deltar) := by
  obtain ⟨hMax, -⟩ := h.adapted.rudder
  obtain ⟨t, hFound, ⟨ii, hLt, hTrial⟩, hLeast⟩ := search_quadratic s.physics s.thetaw s.vw
    s.thetac s.vc (taug id s) s.weights (show (0 : Int) < 20 by norm_num) (by rw [hMax]; norm_num)
    (by rw [hMax]; linarith [pi_gt_three]) (by rw [h.thetac, cos_zero]; exact one_ne_zero)
  refine ⟨t, fun i => adaptor id s t.deltas t.deltar i * dt,
    ⟨⟨ii, by exact_mod_cast hLt, hTrial⟩, fun ii hLt => hLeast ii (by exact_mod_cast hLt)⟩, ?_⟩
  rw [iterate, controller, hFound, if_pos rfl]
  rfl

/-- The sail is sent without its side. -/
theorem send_sailCmds (s : AdaptiveControl ℝ) (deltas deltar : ℝ) : ∃ cmd,
    (send id s deltas deltar).sailCmds = s.sailCmds ++ [cmd] ∧ cmd.pos = |deltas| :=
  ⟨_, rfl, Arith.abs_real deltas⟩

/-- A rudder of at most a quarter is sent as it is. -/
theorem send_rudderCmds (s : AdaptiveControl ℝ) (deltas deltar : ℝ) (h : |deltar| ≤ 1 / 4) :
    (send id s deltas deltar).rudderCmds = s.rudderCmds ++ [deltar] := by
  have hHigh : (lit (1 / 2) : ℝ) = 1 / 2 := by
    rw [Arith.lit_real]
    norm_num
  have hLow : (lit (-1 / 2) : ℝ) = -1 / 2 := by
    rw [Arith.lit_real]
    norm_num
  obtain ⟨hMin, hMax⟩ := abs_le.mp h
  show s.rudderCmds ++ [Util.clip deltar (lit (-1 / 2)) (lit (1 / 2))] = _
  rw [hHigh, hLow, Util.clip_real, min_eq_left (by linarith), max_eq_left (by linarith)]

/-- The cheapest trial is within the limits of sail and rudder. -/
theorem Cheapest.limits {w : ℝ} {s : AdaptiveControl ℝ} (h : Bounded w s) {t : Trial ℝ}
    (ht : Cheapest s t) : |t.deltas| ≤ π / 2 ∧ |t.deltar| ≤ 1 / 4 := by
  obtain ⟨hMax, -⟩ := h.adapted.rudder
  obtain ⟨ii, hLt, hTrial⟩ := ht.isTrial
  obtain ⟨t', ht', hSail, hRudder, -⟩ := trial_quadratic s.physics s.thetaw s.vw s.thetac s.vc
    (taug id s) s.weights 20 ii (by rw [hMax]; norm_num) (by rw [hMax]; linarith [pi_gt_three])
    (by rw [h.thetac, cos_zero]; exact one_ne_zero)
  obtain rfl := Option.some.inj (hTrial.symm.trans ht')
  constructor
  · rw [hSail]
    exact abs_trialSail_le ii (by exact_mod_cast hLt) s.thetaw
  · rw [hRudder, h.thetac, sub_zero, ← hMax]
    exact abs_clampAlpha_le s.physics (by rw [hMax]; norm_num) _

/-- A step keeps the limits. -/
theorem bounded_step {w : ℝ} {s s' : AdaptiveControl ℝ} {a : AdaptiveAction ℝ} (h : Bounded w s)
    (hOmega : ∀ msg, a = .boatState msg → |orZero msg.omega.z| ≤ w)
    (hStep : step id s a = some s') :
    Bounded w s' := by
  cases a with
  | iterate =>
    obtain ⟨t, diff, hCheapest, hIter⟩ := iterate_cases h
    obtain rfl := Option.some.inj (hIter.symm.trans hStep)
    obtain ⟨hSail, hRudder⟩ := hCheapest.limits h
    refine ⟨adapted_incrementBeta h.adapted diff, h.thetac, h.omega, Util.abs_normAngle_le _,
      abs_updateYawRef_omegaRef_le (s := { s with physics := incrementBeta s.physics diff })
        h.omega h.omegaRef, ?_, ?_⟩
    · intro cmd hCmd
      obtain ⟨new, hCmds, hPos⟩ := send_sailCmds
        (updateYawRef id { s with physics := incrementBeta s.physics diff }) t.deltas t.deltar
      rw [hCmds] at hCmd
      rcases List.mem_append.mp hCmd with hOld | hNew
      · exact h.sails cmd hOld
      · rw [List.mem_singleton.mp hNew, hPos]
        exact ⟨abs_nonneg _, hSail⟩
    · intro pos hPos
      rw [send_rudderCmds _ _ _ hRudder] at hPos
      rcases List.mem_append.mp hPos with hOld | hNew
      · exact h.rudders pos hOld
      · rwa [List.mem_singleton.mp hNew]
  | boatState msg =>
    obtain rfl := Option.some.inj hStep
    exact { h with thetac := Rat.cast_zero, omega := hOmega msg rfl }
  | wind msg =>
    obtain rfl := Option.some.inj hStep
    exact { h with }
  | headingCmd heading =>
    obtain rfl := Option.some.inj hStep
    exact { h with }
  | controlConsts msg =>
    obtain rfl := Option.some.inj hStep
    show Bounded w (onConsts s msg)
    rw [onConsts]
    split
    · exact { h with }
    · exact h
  | sbusValue =>
    obtain rfl := Option.some.inj hStep
    exact h

-- ---------------------------------------------------------------------------
-- Runs
-- ---------------------------------------------------------------------------

variable (others : Fin 6 → Fin 6 → ℝ) {as : List (AdaptiveAction ℝ)}

/-- The boat turns by at most `w` in every message. -/
def TurnsAtMost (w : ℝ) (a : AdaptiveAction ℝ) : Prop :=
  ∀ msg, a = .boatState msg → |orZero msg.omega.z| ≤ w

/-- The limits hold at the start. -/
theorem bounded_init {w : ℝ} (hw : 0 ≤ w) : Bounded w (init id others) := by
  have hZero : (litf 0 : ℝ) = 0 := Rat.cast_zero
  refine ⟨adapted_init, hZero, ?_, ?_, ?_, ?_, ?_⟩
  · show |(litf 0 : ℝ)| ≤ w
    rwa [hZero, abs_zero]
  · show |(litf 0 : ℝ)| ≤ π
    rw [hZero, abs_zero]
    exact pi_pos.le
  · show |(litf 0 : ℝ)| ≤ w + 1
    rw [hZero, abs_zero]
    linarith
  · intro cmd hCmd
    cases hCmd
  · intro pos hPos
    cases hPos

/-- Every step has a result. -/
theorem step_isSome {w : ℝ} {s : AdaptiveControl ℝ} (h : Bounded w s) (a : AdaptiveAction ℝ) :
    (step id s a).isSome = true := by
  cases a with
  | iterate =>
    obtain ⟨t, diff, -, hIter⟩ := iterate_cases h
    show (iterate id s).isSome = true
    rw [hIter]
    rfl
  | boatState msg => rfl
  | wind msg => rfl
  | headingCmd heading => rfl
  | controlConsts msg => rfl
  | sbusValue => rfl

/-- A run whose messages turn the boat at `w` at most has a result, within the limits. -/
theorem run_bounded {w : ℝ} (hw : 0 ≤ w) (hTurns : ∀ a ∈ as, TurnsAtMost w a) :
    ∃ s, run (step id) (init id others) as = some s ∧ Bounded w s := by
  have hAlong : Along (step id) (fun _ a => TurnsAtMost w a) (init id others) as :=
    along_of_forall (fun a ha _ => hTurns a ha) _
  have hStep : ∀ s a s', Bounded w s → TurnsAtMost w a → step id s a = some s' → Bounded w s' :=
    fun s a s' hInv hTurn hs => bounded_step hInv hTurn hs
  have hSome : (run (step id) (init id others) as).isSome = true := run_isSome_iff.mpr
    (along_of_inv hStep (fun s a hInv _ => step_isSome hInv a) (bounded_init others hw) hAlong)
  obtain ⟨s, hRun⟩ := Option.isSome_iff_exists.mp hSome
  exact ⟨s, hRun, inv_of_run hStep (bounded_init others hw) hAlong hRun⟩

/-- **Limits.** Whatever the memory holds beside the diagonal of `Kbeta`, and in whatever order the
messages come, every `Iterate` has a result. The numbers that are adapted stay within their limits,
and so do the reference and all commands for sail and rudder. -/
theorem adaptive_bounded {w : ℝ} (hw : 0 ≤ w) (hTurns : ∀ a ∈ as, TurnsAtMost w a) :
    ∃ s, run (step id) (init id others) as = some s ∧ Bounded w s :=
  run_bounded others hw hTurns

/-- There is a fastest turn among finitely many messages. -/
theorem exists_turnsAtMost : ∀ as : List (AdaptiveAction ℝ),
    ∃ w, 0 ≤ w ∧ ∀ a ∈ as, TurnsAtMost w a := by
  intro as
  induction as with
  | nil => exact ⟨0, le_rfl, fun _ ha => absurd ha List.not_mem_nil⟩
  | cons a as ih =>
    obtain ⟨w, hw, hRest⟩ := ih
    obtain ⟨v, hv⟩ : ∃ v, TurnsAtMost v a := by
      cases a with
      | boatState msg =>
        refine ⟨|orZero msg.omega.z|, ?_⟩
        intro msg' hMsg
        cases hMsg
        exact le_rfl
      | iterate | wind | headingCmd | controlConsts | sbusValue =>
        exact ⟨0, fun _ hMsg => nomatch hMsg⟩
    refine ⟨max v w, hw.trans (le_max_right _ _), ?_⟩
    intro b hb msg hMsg
    rcases List.mem_cons.mp hb with rfl | hb
    · exact (hv msg hMsg).trans (le_max_left _ _)
    · exact (hRest b hb msg hMsg).trans (le_max_right _ _)

/-- **Commands.** After every run, an `Iterate` of a boat that moves sends the positions of the
cheapest of the twenty trials. The torque of the boat with them misses the one that is asked for by
the drag of the rudder only, or by what the rudder cannot do at its limit. -/
theorem adaptive_commands {s : AdaptiveControl ℝ}
    (hRun : run (step id) (init id others) as = some s) (hVc : s.vc ≠ 0) :
    ∃ s' t cmd, step id s .iterate = some s' ∧ Cheapest s t ∧
      s'.sailCmds = s.sailCmds ++ [cmd] ∧ cmd.pos = |t.deltas| ∧
      s'.rudderCmds = s.rudderCmds ++ [t.deltar] ∧
      TorqueReached (1 / 20) (1 / 4)
        (torqueDemand s.physics s.thetaw s.vw 0 s.vc (taug id s) t.deltas)
        (gainAt s.physics s.thetaw s.vw 0 s.vc t.deltas) t.deltar (t.taue - taug id s) := by
  obtain ⟨w, hw, hTurns⟩ := exists_turnsAtMost as
  obtain ⟨s₁, hRun₁, h⟩ := run_bounded others hw hTurns
  obtain rfl := Option.some.inj (hRun.symm.trans hRun₁)
  obtain ⟨t, diff, hCheapest, hIter⟩ := iterate_cases h
  obtain ⟨cmd, hCmds, hPos⟩ := send_sailCmds
    (updateYawRef id { s with physics := incrementBeta s.physics diff }) t.deltas t.deltar
  refine ⟨_, t, cmd, hIter, hCheapest, hCmds, hPos,
    send_rudderCmds _ _ _ (hCheapest.limits h).2, ?_⟩
  obtain ⟨hMax, hEps, hRho, hK, hRr⟩ := h.adapted.rudder
  obtain ⟨ii, -, hTrial⟩ := hCheapest.isTrial
  have hArea : s.physics.rudder.area ≠ 0 := by
    have hMin : (betamin 2 : ℝ) = 1 / 100 := by
      show ((1 / 100 : ℚ) : ℝ) = 1 / 100
      norm_num
    have hPos : (betamin 2 : ℝ) ≤ s.physics.rudder.area := (h.adapted.limits 2).1
    rw [hMin] at hPos
    linarith
  rw [h.thetac] at hTrial
  rw [← hEps, ← hMax]
  refine trial_torque s.weights ii (by rw [hMax]; norm_num) (by rw [hMax]; linarith [pi_gt_three])
    hVc ?_ hTrial
  rw [hRho, hK, hRr]
  exact mul_ne_zero (mul_ne_zero (mul_ne_zero (by norm_num) hArea) (by norm_num)) (by norm_num)

/-- One message about a boat that moves and turns, and two rounds. -/
noncomputable def ahead : AdaptiveAction ℝ :=
  .boatState { vel := { x := some 2 }, omega := { z := some (1 / 2) } }

/-- In the message of the witnesses the boat turns by half at most. -/
theorem ahead_turns : TurnsAtMost (1 / 2) ahead := by
  intro msg hMsg
  cases hMsg
  show |(1 / 2 : ℝ)| ≤ 1 / 2
  rw [abs_of_pos (by norm_num)]

/-- Two rounds after the message, with sevens in the memory beside the diagonal. -/
theorem adaptive_bounded_two_rounds :
    ∃ s, run (step id) (init id (fun _ _ => 7)) [ahead, .iterate, .iterate] = some s ∧
      Bounded (1 / 2) s := by
  refine adaptive_bounded _ (by norm_num) ?_
  intro a ha msg hMsg
  rcases List.mem_cons.mp ha with rfl | ha
  · exact ahead_turns msg hMsg
  · rcases List.mem_cons.mp ha with rfl | ha
    · cases hMsg
    · rw [List.mem_singleton.mp ha] at hMsg
      cases hMsg

/-- The first round after the message sends the commands of the cheapest trial. -/
theorem adaptive_commands_ahead : ∃ s s' t cmd,
    run (step id) (init id (fun _ _ => 7)) [ahead] = some s ∧
      step id s .iterate = some s' ∧ Cheapest s t ∧ s'.sailCmds = [cmd] ∧ cmd.pos = |t.deltas| ∧
      s'.rudderCmds = [t.deltar] := by
  have hVc : (onBoatState id (init id (fun _ _ => (7 : ℝ)))
      { vel := { x := some 2 }, omega := { z := some (1 / 2) } }).vc ≠ 0 := by
    have hZero : (lit 0 : ℝ) = 0 := Rat.cast_zero
    show Real.sqrt (2 * 2 + (lit 0 : ℝ) * (lit 0 : ℝ)) ≠ 0
    rw [hZero, mul_zero, add_zero, sqrt_mul_self (by norm_num)]
    norm_num
  obtain ⟨s', t, cmd, hStep, hCheapest, hCmds, hPos, hRudder, -⟩ :=
    adaptive_commands (fun _ _ => 7)
      (show run (step id) (init id (fun _ _ => (7 : ℝ))) [ahead] = some _ from rfl) hVc
  exact ⟨_, s', t, cmd, rfl, hStep, hCheapest, hCmds, hPos, hRudder⟩

end Exact

end AdaptiveControl

end Sailbot.Control
