import Mathlib.Data.List.Chain
import Sailbot.Control.LineCost
import Sailbot.Control.Scamp
import Sailbot.Lib.Number
import Sailbot.Sensor.Messages

/-!
# The ballast

`BallastControl` (`control/ballast.cc`) computes a voltage for the arm of the ballast, and the
actuator node turns it into the number that is sent to the servo. The arm does not move by itself,
so that the voltage is zero or large enough to move it, and more so when it has to start.

Everything here holds for the numbers of the type `double`, with any rounding. Every handler and
every `Iterate` is one step; in the node the handlers run beside the two statements that compute the
integral.

* `BallastControl.step`         — one `Iterate`, or one message.
* `BallastControl.Sound`        — the limits of the integral and of the voltages.
* `BallastSystem.step`          — the controller and the actuator node. Commands may be late, come
  twice, overtake one another and be lost.
* `BallastSystem.ballast_moves` — the numbers for the servo of the ballast.
-/

namespace Sailbot.Control

open Lib
open Lib.Arith (lit litf)

namespace BallastControl

/-- The constants that `BallastControl` uses. -/
structure Consts (R : Type) where
  ballastHeelKp      : Option R := none
  ballastHeelKi      : Option R := none
  ballastHeelKd      : Option R := none
  ballastHeelKffGoal : Option R := none
  ballastArmKp       : Option R := none
  ballastArmKd       : Option R := none
  ballastArmKffArm   : Option R := none
  ballastArmKffHeel  : Option R := none

end BallastControl

open BallastControl

structure BallastControl (R : Type) where
  consts              : Consts R
  heelGoal            : R
  heel                : R
  heelDot             : R
  ballast             : R
  ballastDot          : R
  heelErrorIntegrator : R
  lastVoltage         : R
  counter             : Nat := 0
  ballastCmds         : List R := []
  constsQueue         : List (Consts R) := []

namespace BallastControl

variable {R : Type} [Arith R]

def dt : R := litf (1 / 100)

/-- The node after its constructor. -/
def init : BallastControl R :=
  let consts : Consts R := {
    ballastHeelKp := some (litf (25 / 100)), ballastHeelKi := some (litf (5 / 100))
    ballastHeelKd := some (litf 0), ballastHeelKffGoal := some (litf (1 / 10))
    ballastArmKp := some (litf 40), ballastArmKd := some (litf 0)
    ballastArmKffArm := some (litf 0), ballastArmKffHeel := some (litf 0) }
  { consts := consts
    heelGoal := lit 0
    heel := lit 0
    heelDot := lit 0
    ballast := lit 0
    ballastDot := lit 0
    heelErrorIntegrator := lit 0
    lastVoltage := lit 0
    constsQueue := [consts] }

variable (toFloat : R → R) (s : BallastControl R)

-- ---------------------------------------------------------------------------
-- Iterate
-- ---------------------------------------------------------------------------

def heelError : R := Util.normAngle (s.heelGoal - s.heel)

/-- The integral after a round. -/
def newIntegrator : R := Util.clip (s.heelErrorIntegrator + heelError s * dt) (lit (-5)) (lit 5)

/-- The position of the arm that is asked for. -/
def ballastGoal : R :=
  Util.clip
    (orZero s.consts.ballastHeelKp * heelError s + orZero s.consts.ballastHeelKi * newIntegrator s +
      orZero s.consts.ballastHeelKd * -s.heelDot +
      orZero s.consts.ballastHeelKffGoal * s.heelGoal)
    (lit (-12 / 10)) (lit (12 / 10))

/-- The error of the arm; the deadband of the source is zero wide. -/
def ballastError : R :=
  let ballastError := ballastGoal s - s.ballast
  let deadband : R := lit 0
  if Arith.lt (lit 0) ballastError then Arith.max (lit 0) (ballastError - deadband)
  else Arith.min (lit 0) (ballastError + deadband)

/-- The voltage before it is compared with what moves the arm. -/
def clippedVoltage : R :=
  Util.clip
    (orZero s.consts.ballastArmKp * ballastError s + orZero s.consts.ballastArmKd * -s.ballastDot -
      orZero s.consts.ballastArmKffArm * s.ballast - orZero s.consts.ballastArmKffHeel * s.heel)
    (lit (-12)) (lit 12)

/-- What it takes to start the arm, or to keep it moving. -/
def voltageDeadband : R := if Arith.eq s.lastVoltage (lit 0) then lit (7 / 2) else lit (3 / 2)

def ballastVoltage : R :=
  if Arith.lt (Arith.abs (ballastError s)) (lit (1 / 1000)) ||
      Arith.lt (lit (3 / 2)) (Arith.abs s.ballast) ||
      Arith.lt (Arith.abs (clippedVoltage s)) (voltageDeadband s) then lit 0
  else clippedVoltage s

/-- One `Iterate`. -/
def iterate : BallastControl R :=
  let counter := s.counter + 1
  { s with
    heelErrorIntegrator := newIntegrator s
    lastVoltage := ballastVoltage s
    ballastCmds := s.ballastCmds ++ [toFloat (ballastVoltage s)]
    counter := counter
    constsQueue := s.constsQueue ++ if counter % 110 = 0 then [s.consts] else [] }

-- ---------------------------------------------------------------------------
-- Messages
-- ---------------------------------------------------------------------------

inductive BallastAction (R : Type)
  | iterate
  | controlConsts (msg : Consts R)
  | controlMode (mode : ControlMode)
  | headingCmd (heading : Option R)
  | boatState (msg : BoatState R)

/-- Constants are taken over if they have all the fields. -/
def Consts.accepted (msg : Consts R) : Bool :=
  msg.ballastHeelKp.isSome && msg.ballastHeelKi.isSome && msg.ballastHeelKd.isSome &&
    msg.ballastArmKp.isSome && msg.ballastArmKd.isSome && msg.ballastArmKffArm.isSome &&
    msg.ballastArmKffHeel.isSome && msg.ballastHeelKffGoal.isSome

/-- Another gain of the integral starts it anew. -/
def onConsts (msg : Consts R) : BallastControl R :=
  if msg.accepted then
    let change := toFloat (orZero msg.ballastHeelKi - orZero s.consts.ballastHeelKi)
    { s with
      consts := msg
      heelErrorIntegrator :=
        if Arith.lt (lit (1 / 1000)) (Arith.abs change) then lit 0 else s.heelErrorIntegrator }
  else s

/-- The integral changes its side with the goal. -/
def onHeadingCmd (cmd : R) : BallastControl R :=
  { s with
    heelGoal := cmd
    heelErrorIntegrator :=
      if Arith.eq cmd (lit 0) then lit 0
      else if Arith.eq (Util.sign cmd) (Util.sign s.heelGoal) then s.heelErrorIntegrator
      else -s.heelErrorIntegrator }

def step : BallastControl R → BallastAction R → BallastControl R
  | s, .iterate => iterate toFloat s
  | s, .controlConsts msg => onConsts toFloat s msg
  | s, .controlMode mode =>
    if mode.ballastMode.isSome then { s with heelErrorIntegrator := lit 0 } else s
  | s, .headingCmd (some heading) => onHeadingCmd s heading
  | s, .headingCmd none => s
  | s, .boatState msg => { s with
      heel := orZero msg.eulerAngles.yaw
      heelDot := orZero msg.omega.z
      ballast := orZero msg.internal.ballast
      ballastDot := orZero msg.internal.ballastdot }

-- ---------------------------------------------------------------------------
-- Numbers
-- ---------------------------------------------------------------------------

section Double

variable {F : Formats} {m : Libm}

open Double

/-- All fields hold numbers. -/
structure Consts.Nums (c : Consts (Double F m)) : Prop where
  ballastHeelKp      : IsNum (orZero c.ballastHeelKp)
  ballastHeelKi      : IsNum (orZero c.ballastHeelKi)
  ballastHeelKd      : IsNum (orZero c.ballastHeelKd)
  ballastHeelKffGoal : IsNum (orZero c.ballastHeelKffGoal)
  ballastArmKp       : IsNum (orZero c.ballastArmKp)
  ballastArmKd       : IsNum (orZero c.ballastArmKd)
  ballastArmKffArm   : IsNum (orZero c.ballastArmKffArm)
  ballastArmKffHeel  : IsNum (orZero c.ballastArmKffHeel)

/-- All that is used of a message are numbers. -/
def BallastAction.Nums : BallastAction (Double F m) → Prop
  | .iterate | .controlMode _ | .headingCmd none => True
  | .controlConsts msg => msg.Nums
  | .headingCmd (some heading) => IsNum heading
  | .boatState msg => IsNum (orZero msg.eulerAngles.yaw) ∧ IsNum (orZero msg.omega.z) ∧
      IsNum (orZero msg.internal.ballast) ∧ IsNum (orZero msg.internal.ballastdot)

/-- No voltage, or one of at least `n` volts in either direction. -/
def Powered (n : ℚ) (v : Double F m) : Prop :=
  v = num 0 ∨ ∃ q, v = num q ∧ n ≤ |q| ∧ |q| ≤ 12

/-- An arm that stands gets no voltage or three volts. -/
def Starts (v w : Double F m) : Prop := v = num 0 → Powered 3 w

/-- The limits that hold in every run. -/
structure Sound (s : BallastControl (Double F m)) : Prop where
  consts     : s.consts.Nums
  heelGoal   : IsNum s.heelGoal
  heel       : IsNum s.heel
  heelDot    : IsNum s.heelDot
  ballast    : IsNum s.ballast
  ballastDot : IsNum s.ballastDot
  integrator : ∃ q, s.heelErrorIntegrator = num q ∧ |q| ≤ 5
  last       : Powered 1 s.lastVoltage
  sent       : ∀ v ∈ s.ballastCmds, Powered 1 v
  starts     : (num 0 :: s.ballastCmds).IsChain Starts
  lastSent   : (num 0 :: s.ballastCmds).getLast? = some (conv F.float s.lastVoltage)

/-- The angle of a number is a number. -/
theorem isNum_normAngle {a : Double F m} (ha : IsNum a) : IsNum (Util.normAngle a) := by
  have hTau : ∃ tau, (lit 2 * Arith.mPi : Double F m) = num tau ∧ tau ≠ 0 := by
    obtain ⟨hLow, -⟩ := F.double.between (x := 2 * (884279719003555 / 281474976710656)) (a := 6)
      (b := 7) (by decide) (by decide) (by norm_num)
    refine ⟨_, ?_, (show (0 : ℚ) < _ from lt_of_lt_of_le (by norm_num) hLow).ne'⟩
    have hTwo : (lit 2 : Double F m) = num 2 := lit_int (n := 2) (by decide)
    rw [hTwo]
    rfl
  obtain ⟨tau, hTau, hNe⟩ := hTau
  unfold Util.normAngle
  rw [hTau]
  exact isNum_ite (isNum_sub ha (isNum_mul (isNum_trunc _) (isNum_num _)))
    (isNum_ite (isNum_sub ha (isNum_mul (isNum_trunc _) (isNum_num _))) ha)

/-- What is clipped to a range of integers. -/
theorem clip_int {a : Double F m} (ha : IsNum a) {n : Int} (hn : 0 ≤ n ∧ n ≤ 12) :
    ∃ q, Util.clip a (lit (-n : Int)) (lit n) = num q ∧ |q| ≤ n := by
  obtain ⟨x, rfl⟩ := ha
  have hLow : |(-n : Int)| ≤ 2 ^ 24 := by
    rw [abs_neg, abs_of_nonneg hn.1]
    omega
  have hHigh : |n| ≤ 2 ^ 24 := by
    rw [abs_of_nonneg hn.1]
    omega
  have hNonneg : (0 : ℚ) ≤ n := by exact_mod_cast hn.1
  rw [Util.clip, lit_int hLow, lit_int hHigh, min_num, max_num]
  refine ⟨_, rfl, ?_⟩
  rw [abs_le]
  push_cast
  exact ⟨le_max_right _ _, max_le (min_le_right _ _) (by linarith)⟩

section OneRound

variable {s : BallastControl (Double F m)} (h : Sound s)
include h

/-- The error of the heel is a number. -/
theorem isNum_heelError : IsNum (heelError s) := isNum_normAngle (isNum_sub h.heelGoal h.heel)

/-- The integral is a number of at most 5. -/
theorem newIntegrator_le : ∃ q, newIntegrator s = num q ∧ |q| ≤ 5 := by
  obtain ⟨q, hq, -⟩ := h.integrator
  have hSum : IsNum (s.heelErrorIntegrator + heelError s * dt) :=
    isNum_add ⟨q, hq⟩ (isNum_mul (isNum_heelError h) (isNum_litf _))
  obtain ⟨r, hr, hLe⟩ := clip_int hSum (n := 5) (by decide)
  exact ⟨r, hr, by exact_mod_cast hLe⟩

/-- The error of the arm is a number. -/
theorem isNum_ballastError : IsNum (ballastError s) := by
  obtain ⟨q, hq, -⟩ := newIntegrator_le h
  have hGoal : IsNum (ballastGoal s) := by
    refine isNum_max (isNum_min ?_ (isNum_lit _)) (isNum_lit _)
    exact isNum_add (isNum_add (isNum_add (isNum_mul h.consts.ballastHeelKp (isNum_heelError h))
      (isNum_mul h.consts.ballastHeelKi ⟨q, hq⟩))
      (isNum_mul h.consts.ballastHeelKd (isNum_neg h.heelDot)))
      (isNum_mul h.consts.ballastHeelKffGoal h.heelGoal)
  have hDiff := isNum_sub hGoal h.ballast
  exact isNum_ite (isNum_max (isNum_lit _) (isNum_sub hDiff (isNum_lit _)))
    (isNum_min (isNum_lit _) (isNum_add hDiff (isNum_lit _)))

/-- The voltage is a number of at most 12 volts. -/
theorem clippedVoltage_le : ∃ q, clippedVoltage s = num q ∧ |q| ≤ 12 := by
  have hVolts := isNum_sub (isNum_sub (isNum_add
    (isNum_mul h.consts.ballastArmKp (isNum_ballastError h))
    (isNum_mul h.consts.ballastArmKd (isNum_neg h.ballastDot)))
    (isNum_mul h.consts.ballastArmKffArm h.ballast))
    (isNum_mul h.consts.ballastArmKffHeel h.heel)
  obtain ⟨q, hq, hLe⟩ := clip_int hVolts (n := 12) (by decide)
  exact ⟨q, hq, by exact_mod_cast hLe⟩

/-- What is not below the deadband `x` has at least `n` volts. -/
theorem powered_of_deadband {n : Int} {x : ℚ} (hn : 0 ≤ n ∧ n ≤ 11)
    (hx : (n : ℚ) ≤ x ∧ x ≤ (n + 1 : Int)) (hDeadband : voltageDeadband s = lit x) :
    Powered n (ballastVoltage s) := by
  obtain ⟨q, hq, hLe⟩ := clippedVoltage_le h
  have hRound : (n : ℚ) ≤ F.double.round x :=
    (F.double.between (by rw [abs_of_nonneg hn.1]; omega)
      (by rw [abs_of_nonneg (by omega)]; omega) hx).1
  unfold ballastVoltage
  rw [hDeadband, hq, abs_num]
  split
  case isTrue => exact .inl lit_zero
  case isFalse hNot =>
    have hGe : ¬ |q| < F.double.round x := by
      intro hLess
      have hLt : Arith.lt (num |q| : Double F m) (lit x) = true := lt_num.mpr hLess
      rw [hLt, Bool.or_true] at hNot
      exact hNot rfl
    exact .inr ⟨q, rfl, hRound.trans (not_lt.mp hGe), hLe⟩

omit h in
/-- What has so many volts has fewer. -/
theorem Powered.mono {n k : ℚ} {v : Double F m} (hv : Powered n v) (hLe : k ≤ n) : Powered k v := by
  refine hv.imp_right ?_
  rintro ⟨q, hq, hLow, hHigh⟩
  exact ⟨q, hq, hLe.trans hLow, hHigh⟩

/-- The voltage is zero, or enough to move the arm. -/
theorem ballastVoltage_powered :
    Powered 1 (ballastVoltage s) ∧ Starts s.lastVoltage (ballastVoltage s) := by
  have hStart : Starts s.lastVoltage (ballastVoltage s) := by
    intro hZero
    have hDeadband : voltageDeadband s = lit (7 / 2) := by
      rw [voltageDeadband, hZero, lit_zero, if_pos (eq_num.mpr rfl)]
    exact powered_of_deadband h (n := 3) (by decide) (by norm_num) hDeadband
  refine ⟨?_, hStart⟩
  by_cases hZero : s.lastVoltage = num 0
  · exact (hStart hZero).mono (by norm_num)
  · have hDeadband : voltageDeadband s = lit (3 / 2) := by
      rcases h.last with hNone | ⟨q, hq, -⟩
      · exact absurd hNone hZero
      · have hNe : ¬ Arith.eq (num q : Double F m) (num 0) = true := by
          rw [eq_num]
          rintro rfl
          exact hZero hq
        rw [voltageDeadband, hq, lit_zero, if_neg hNe]
    exact_mod_cast powered_of_deadband h (n := 1) (by decide) (by norm_num) hDeadband

end OneRound

/-- A rounding to `float` keeps the number of volts. -/
theorem Powered.conv {n : Int} (hn : 0 ≤ n ∧ n ≤ 12) {v : Double F m} (hv : Powered n v) :
    Powered n (conv F.float v) := by
  rcases hv with rfl | ⟨q, rfl, hLow, hHigh⟩
  · left
    rw [conv_num, F.float.round_zero]
  · have hBetween := F.float.abs_between (x := q) (a := n) (b := 12)
      ⟨hn.1, hn.2.trans (by decide)⟩ (by decide) ⟨hLow, by exact_mod_cast hHigh⟩
    exact .inr ⟨F.float.round q, rfl, hBetween.1, by exact_mod_cast hBetween.2⟩

/-- No voltage is sent if and only if there is none. -/
theorem conv_eq_zero_iff {v : Double F m} (hv : Powered 1 v) :
    conv F.float v = num 0 ↔ v = num 0 := by
  rcases hv with rfl | ⟨q, rfl, hLow, hHigh⟩
  · rw [conv_num, F.float.round_zero]
  · have hBetween := F.float.abs_between (x := q) (a := 1) (b := 12) (by decide) (by decide)
      ⟨by exact_mod_cast hLow, by exact_mod_cast hHigh⟩
    have hNe : ∀ x : ℚ, 1 ≤ |x| → (num x : Double F m) ≠ num 0 := by
      rintro x hx hZero
      rw [Fp.num.inj hZero, abs_zero] at hx
      exact absurd hx (by norm_num)
    rw [conv_num]
    exact iff_of_false (hNe _ (by exact_mod_cast hBetween.1)) (hNe _ hLow)

-- ---------------------------------------------------------------------------
-- Runs
-- ---------------------------------------------------------------------------

/-- The limits hold at the start. -/
theorem sound_init : Sound (init : BallastControl (Double F m)) := by
  have hNum : IsNum (lit 0 : Double F m) := isNum_lit 0
  refine ⟨⟨?_, ?_, ?_, ?_, ?_, ?_, ?_, ?_⟩, hNum, hNum, hNum, hNum, hNum,
    ⟨0, lit_zero, by norm_num⟩, .inl lit_zero, ?_, .singleton _, ?_⟩
  all_goals first | exact isNum_litf _ | skip
  · intro v hv
    cases hv
  · show some (num 0) = some (conv F.float (lit 0))
    rw [lit_zero, conv_num, F.float.round_zero]

/-- A round keeps the limits. -/
theorem sound_iterate {s : BallastControl (Double F m)} (h : Sound s) :
    Sound (iterate (conv F.float) s) := by
  obtain ⟨hPowered, hStarts⟩ := ballastVoltage_powered h
  have hConv : Powered 1 (conv F.float (ballastVoltage s)) := by
    exact_mod_cast Powered.conv (n := 1) (by decide) (by exact_mod_cast hPowered)
  refine { h with
    integrator := newIntegrator_le h
    last := hPowered
    sent := ?_
    starts := ?_
    lastSent := ?_ }
  · intro v hv
    rcases List.mem_append.mp hv with hOld | hNew
    · exact h.sent v hOld
    · rwa [List.mem_singleton.mp hNew]
  · show ((num 0 :: s.ballastCmds) ++ [conv F.float (ballastVoltage s)]).IsChain Starts
    refine h.starts.append (.singleton _) ?_
    intro v hv w hw hZero
    rw [h.lastSent, Option.mem_some_iff] at hv
    obtain rfl := Option.some.inj hw
    have hLast : s.lastVoltage = num 0 := (conv_eq_zero_iff h.last).mp (hv.trans hZero)
    exact_mod_cast Powered.conv (n := 3) (by decide) (by exact_mod_cast hStarts hLast)
  · show ((num 0 :: s.ballastCmds) ++ [conv F.float (ballastVoltage s)]).getLast? = _
    rw [List.getLast?_concat]
    rfl

/-- A message of numbers keeps the limits. -/
theorem sound_step {s : BallastControl (Double F m)} {a : BallastAction (Double F m)}
    (h : Sound s) (ha : a.Nums) : Sound (step (conv F.float) s a) := by
  obtain ⟨q, hq, hLe⟩ := h.integrator
  have hZero : ∃ q, (lit 0 : Double F m) = num q ∧ |q| ≤ 5 := ⟨0, lit_zero, by norm_num⟩
  cases a with
  | iterate => exact sound_iterate h
  | controlConsts msg =>
    show Sound (onConsts (conv F.float) s msg)
    unfold onConsts
    split
    · refine { h with consts := ha, integrator := ?_ }
      dsimp only
      split
      · exact hZero
      · exact h.integrator
    · exact h
  | controlMode mode =>
    show Sound (if mode.ballastMode.isSome then { s with heelErrorIntegrator := lit 0 } else s)
    split
    · exact { h with integrator := hZero }
    · exact h
  | headingCmd heading =>
    cases heading with
    | none => exact h
    | some heading =>
      refine { h with heelGoal := ha, integrator := ?_ }
      show ∃ q, (if Arith.eq heading (lit 0) then lit 0
        else if Arith.eq (Util.sign heading) (Util.sign s.heelGoal) then s.heelErrorIntegrator
        else -s.heelErrorIntegrator) = num q ∧ |q| ≤ 5
      split
      · exact hZero
      · split
        · exact h.integrator
        · rw [hq]
          exact ⟨-q, rfl, by rwa [abs_neg]⟩
  | boatState msg =>
    obtain ⟨hYaw, hOmega, hBallast, hDot⟩ := ha
    exact { h with heel := hYaw, heelDot := hOmega, ballast := hBallast, ballastDot := hDot }

end Double

end BallastControl

-- ---------------------------------------------------------------------------
-- With the actuator node
-- ---------------------------------------------------------------------------

open BallastControl Double

variable {F : Formats} {m : Libm}

structure BallastSystem (F : Formats) (m : Libm) where
  control : BallastControl (Double F m)
  scamp   : Scamp

namespace BallastSystem

/-- A round of the controller or a message to it, the arrival of one of the commands that it has
sent, or a message to the actuator node. -/
inductive BallastSystemAction (F : Formats) (m : Libm)
  | control (a : BallastAction (Double F m))
  | arrive (i : Nat)
  | scamp (a : ScampMsg)

variable (F m) in
def init (file : Option ZeroingConstants) : BallastSystem F m where
  control := BallastControl.init
  scamp := Scamp.init F file

/-- The command with the voltage `v`. -/
def voltageCmd (v : Double F m) : ScampMsg := .ballastCmd { voltage := some v }

def step (s : BallastSystem F m) : BallastSystemAction F m → Option (BallastSystem F m)
  | .control a => some { s with control := s.control.step (conv F.float) a }
  | .arrive i =>
    s.control.ballastCmds[i]?.bind fun v =>
      (s.scamp.step F (voltageCmd v)).map fun scamp => { s with scamp := scamp }
  | .scamp a => (s.scamp.step F a).map fun scamp => { s with scamp := scamp }

/-- The controller gets numbers, and no one else sends commands for the ballast. -/
def Fair : BallastSystemAction F m → Prop
  | .control a => a.Nums
  | .arrive _ => True
  | .scamp a => ∀ cmd, a ≠ .ballastCmd cmd ∧ a ≠ .manualBallastCmd cmd

/-- The neutral number, or one that moves the arm. -/
def Moves (n : Int) : Prop := n = 90 ∨ (0 ≤ n ∧ n ≤ 83) ∨ (97 ≤ n ∧ n ≤ 180)

/-- The limits of the controller, and what the servo of the ballast was told. -/
structure SystemSound (s : BallastSystem F m) : Prop where
  control : Sound s.control
  raw     : Moves s.scamp.rawBallast
  sent    : ∀ msg ∈ s.scamp.pwmQueue, Moves msg.ballast

/-- The end of the travel takes a voltage away or leaves it. -/
theorem ballastVolts_num {q : ℚ} (hq : |q| ≤ 12) (pos : Fp) :
    Scamp.ballastVolts F pos (.num q) = .num q ∨ Scamp.ballastVolts F pos (.num q) = .num 0 := by
  obtain ⟨hLow, hHigh⟩ := abs_le.mp hq
  have hClip : Fp.max (Fp.min (.num q) (.num 12)) (.num (-12)) = .num q := by
    have hMin : ¬ (12 : ℚ) < q := not_lt.mpr hHigh
    have hMax : ¬ q < -12 := not_lt.mpr hLow
    simp [Fp.max, Fp.min, Fp.lt, hMin, hMax]
  unfold Scamp.ballastVolts
  dsimp only
  rw [hClip]
  split
  · rw [Fp.min]
    split
    · exact .inr rfl
    · exact .inl rfl
  · split
    · rw [Fp.max]
      split
      · exact .inr rfl
      · exact .inl rfl
    · exact .inl rfl

/-- The number for a voltage, with the roundings on the way. -/
theorem toInt_ballastDegrees {q : ℚ} {a b : Int} (low high : Int)
    (hab : -2000 ≤ a ∧ b ≤ 2000 ∧ a ≤ b) (hq : (a : ℚ) ≤ q * 90 ∧ q * 90 ≤ b)
    (hLow : 12 * low ≤ a) (hHigh : b ≤ 12 * high) (hRange : -90 ≤ low ∧ low ≤ high ∧ high ≤ 90) :
    ∃ n, Fp.toInt (Scamp.ballastDegrees F (.num q)) = some n ∧ low + 90 ≤ n ∧ n ≤ high + 90 := by
  have hSmall : ∀ k : Int, -2000 ≤ k → k ≤ 2000 → |k| ≤ 2 ^ 24 := fun k h₁ h₂ => by
    rw [abs_le]
    omega
  obtain ⟨hMulLow, hMulHigh⟩ := F.double.between (hSmall a (by omega) (by omega))
    (hSmall b (by omega) (by omega)) hq
  have hLowQ : (12 : ℚ) * low ≤ a := by exact_mod_cast hLow
  have hHighQ : (b : ℚ) ≤ 12 * high := by exact_mod_cast hHigh
  obtain ⟨hDivLow, hDivHigh⟩ := F.double.between (x := F.double.round (q * 90) / 12)
    (hSmall low (by omega) (by omega)) (hSmall high (by omega) (by omega))
    ⟨by linarith, by linarith⟩
  obtain ⟨hAddLow, hAddHigh⟩ := F.double.between
    (x := F.double.round (F.double.round (q * 90) / 12) + 90)
    (hSmall (low + 90) (by omega) (by omega)) (hSmall (high + 90) (by omega) (by omega))
    ⟨by push_cast; linarith, by push_cast; linarith⟩
  set x := F.double.round (F.double.round (F.double.round (q * 90) / 12) + 90) with hx
  have hNum : Scamp.ballastDegrees F (.num q) = .num x := by
    simp [Scamp.ballastDegrees, Fp.add, Fp.mul, Fp.div, hx]
  have hNonneg : (0 : ℚ) ≤ x := by
    have hZero : (0 : ℚ) ≤ ((low + 90 : Int) : ℚ) := by exact_mod_cast (by omega)
    linarith
  have hTrunc : truncate x = ⌊x⌋ := if_pos hNonneg
  have hFloorLow : low + 90 ≤ ⌊x⌋ := Int.le_floor.mpr hAddLow
  have hFloorHigh : ⌊x⌋ ≤ high + 90 := by
    exact_mod_cast (Int.floor_le x).trans hAddHigh
  refine ⟨⌊x⌋, ?_, hFloorLow, hFloorHigh⟩
  rw [hNum, Fp.toInt, hTrunc, if_pos (by omega)]

/-- A voltage of one to twelve volts, or of none, gives the neutral number or one that moves the
arm. -/
theorem moves_ballastDegrees {q : ℚ} (hq : q = 0 ∨ 1 ≤ |q| ∧ |q| ≤ 12) :
    ∃ n, Fp.toInt (Scamp.ballastDegrees F (.num q)) = some n ∧ Moves n := by
  rcases hq with rfl | ⟨hLow, hHigh⟩
  · obtain ⟨n, hn, hRange⟩ := toInt_ballastDegrees (F := F) (q := 0) (a := 0) (b := 0) 0 0
      (by decide) (by norm_num) (by decide) (by decide) (by decide)
    exact ⟨n, hn, .inl (by omega)⟩
  · rcases le_abs.mp hLow with hPos | hNeg
    · rw [abs_of_nonneg (by linarith)] at hHigh
      obtain ⟨n, hn, hRange⟩ := toInt_ballastDegrees (F := F) (q := q) (a := 90) (b := 1080) 7 90
        (by decide) ⟨by push_cast; linarith, by push_cast; linarith⟩
        (by decide) (by decide) (by decide)
      exact ⟨n, hn, .inr (.inr (by omega))⟩
    · rw [abs_of_nonpos (by linarith)] at hHigh
      obtain ⟨n, hn, hRange⟩ := toInt_ballastDegrees (F := F) (q := q) (a := -1080) (b := -90)
        (-90) (-7) (by decide) ⟨by push_cast; linarith, by push_cast; linarith⟩
        (by decide) (by decide) (by decide)
      exact ⟨n, hn, .inr (.inl (by omega))⟩

/-- A command of the controller is accepted, or it comes in another mode. -/
theorem step_voltageCmd {s : Scamp} {v : Double F m} (h : Powered 1 v) :
    ∃ s', Scamp.step F s (voltageCmd v) = some s' ∧ s'.pwmQueue = s.pwmQueue ∧
      (s'.rawBallast = s.rawBallast ∨ Moves s'.rawBallast) := by
  obtain ⟨q, rfl, hq⟩ : ∃ q, v = num q ∧ (q = 0 ∨ 1 ≤ |q| ∧ |q| ≤ 12) := by
    rcases h with rfl | ⟨q, rfl, hq⟩
    · exact ⟨0, rfl, .inl rfl⟩
    · exact ⟨q, rfl, .inr hq⟩
  have hLe : |q| ≤ 12 := by
    rcases hq with rfl | hq
    · norm_num
    · exact hq.2
  obtain ⟨n, hn, hMoves⟩ : ∃ n, Fp.toInt (Scamp.ballastDegrees F
      (Scamp.ballastVolts F s.ballastPos (.num q))) = some n ∧ Moves n := by
    rcases ballastVolts_num (F := F) hLe s.ballastPos with hSame | hNone
    · rw [hSame]
      exact moves_ballastDegrees hq
    · rw [hNone]
      exact moves_ballastDegrees (.inl rfl)
  show ∃ s', s.acceptBallastCmd F .auto { voltage := some (.num q) } = some s' ∧ _
  unfold Scamp.acceptBallastCmd
  split
  · refine ⟨{ s with rawBallast := n }, ?_, rfl, .inr hMoves⟩
    unfold Scamp.setRawFromBallastCmd
    dsimp only
    rw [hn]
    rfl
  · exact ⟨s, rfl, rfl, .inl rfl⟩

/-- Any other message keeps the number for the ballast, or makes it neutral. -/
theorem scamp_step_moves {s s' : Scamp} {a : ScampMsg} (hRaw : Moves s.rawBallast)
    (hSent : ∀ msg ∈ s.pwmQueue, Moves msg.ballast)
    (hOther : ∀ cmd, a ≠ .ballastCmd cmd ∧ a ≠ .manualBallastCmd cmd)
    (hStep : Scamp.step F s a = some s') :
    Moves s'.rawBallast ∧ ∀ msg ∈ s'.pwmQueue, Moves msg.ballast := by
  have hNew : Moves s'.rawBallast := by
    rcases Scamp.raw_cases hStep .ballast with ⟨-, hKept | hWritten⟩ | hMode
    · rw [show s'.rawBallast = s.rawBallast from hKept]
      exact hRaw
    · cases hWritten with
      | @ballastVel _ cmd _ _ accepts _ _ | @ballastVoltage _ cmd _ _ accepts _ =>
        rcases accepts with ⟨rfl, -⟩ | ⟨rfl, -⟩
        · exact absurd rfl (hOther cmd).1
        · exact absurd rfl (hOther cmd).2
    · rw [show s'.rawBallast = _ from hMode, Scamp.neutralIfDisabled]
      split
      · exact .inl rfl
      · exact hRaw
  refine ⟨hNew, ?_⟩
  rcases Scamp.published_cases hStep with ⟨hQueue, -⟩ | ⟨rfl, hQueue, -⟩
  · rwa [hQueue]
  · intro msg hMsg
    rw [hQueue] at hMsg
    rcases List.mem_append.mp hMsg with hOld | hNewMsg
    · exact hSent msg hOld
    · rw [List.mem_singleton.mp hNewMsg]
      have hValue := Scamp.pwmMsg_value (s := s) .ballast
      obtain rfl := Option.some.inj hStep
      have hCast : ((toUInt32 s.iterate.rawBallast : Nat) : Int) = s.iterate.rawBallast := by
        unfold toUInt32
        unfold Moves at hNew
        omega
      show Moves ((s.pwmMsg.value .ballast : Nat) : Int)
      rw [hValue]
      show Moves ((toUInt32 s.iterate.rawBallast : Nat) : Int)
      rwa [hCast]

/-- Every fair step keeps the limits, and what the servo was told. -/
theorem systemSound_step {s s' : BallastSystem F m} {a : BallastSystemAction F m}
    (h : SystemSound s) (ha : Fair a) (hStep : step s a = some s') : SystemSound s' := by
  cases a with
  | control a =>
    obtain rfl := Option.some.inj hStep
    exact { h with control := sound_step h.control ha }
  | arrive i =>
    obtain ⟨v, hv, hStep⟩ := Option.bind_eq_some_iff.mp hStep
    obtain ⟨scamp, hScamp, rfl⟩ := Option.map_eq_some_iff.mp hStep
    obtain ⟨t, ht, hQueue, hRaw⟩ :=
      step_voltageCmd (s := s.scamp) (h.control.sent v (List.mem_of_getElem? hv))
    obtain rfl := Option.some.inj (ht.symm.trans hScamp)
    refine { h with raw := ?_, sent := by rw [hQueue]; exact h.sent }
    rcases hRaw with hKept | hMoves
    · rw [hKept]
      exact h.raw
    · exact hMoves
  | scamp a =>
    obtain ⟨scamp, hScamp, rfl⟩ := Option.map_eq_some_iff.mp hStep
    obtain ⟨hRaw, hSent⟩ := scamp_step_moves h.raw h.sent ha hScamp
    exact { h with raw := hRaw, sent := hSent }

/-- At the start the servo was told nothing but the neutral number. -/
theorem systemSound_init (file : Option ZeroingConstants) : SystemSound (init F m file) := by
  refine ⟨sound_init, .inl rfl, ?_⟩
  intro msg hMsg
  cases hMsg

/-- **Ballast.** In every run with numbers, the servo of the ballast is told the neutral number or
one that moves the arm. No arrival of a command is a conversion that is not defined. The voltages
that were sent are zero or large enough, and those that start the arm are larger. -/
theorem ballast_moves {file : Option ZeroingConstants} {as : List (BallastSystemAction F m)}
    {s : BallastSystem F m} (hFair : ∀ a ∈ as, Fair a)
    (hRun : run step (init F m file) as = some s) :
    (∀ msg ∈ s.scamp.pwmQueue, Moves msg.ballast) ∧
      (∀ i < s.control.ballastCmds.length, (step s (.arrive i)).isSome = true) ∧
      (∃ q, s.control.heelErrorIntegrator = num q ∧ |q| ≤ 5) ∧
      (∀ v ∈ s.control.ballastCmds, Powered 1 v) ∧
      (num 0 :: s.control.ballastCmds).IsChain Starts := by
  have h : SystemSound s := inv_of_run (fun _ _ _ h ha hStep => systemSound_step h ha hStep)
    (systemSound_init file) (along_of_forall (fun a ha _ => hFair a ha) _) hRun
  refine ⟨h.sent, ?_, h.control.integrator, h.control.sent, h.control.starts⟩
  intro i hi
  obtain ⟨scamp, hScamp, -⟩ :=
    step_voltageCmd (s := s.scamp) (h.control.sent _ (List.getElem_mem hi))
  simp only [step, List.getElem?_eq_getElem hi, Option.bind_some, hScamp, Option.map_some,
    Option.isSome_some]

/-- A heading is asked for, and the command of the first round arrives. -/
theorem ballast_moves_one_round :
    ∃ s, run step (init .exact .atZero none)
        [.scamp (.controlMode { ballastMode := some .auto }),
          .control (.headingCmd (some (num 1))), .control .iterate, .arrive 0,
          .scamp .iterate] = some s ∧
      ∀ msg ∈ s.scamp.pwmQueue, Moves msg.ballast := by
  have hRun : (run step (init .exact .atZero none)
      [.scamp (.controlMode { ballastMode := some .auto }),
        .control (.headingCmd (some (num 1))), .control .iterate, .arrive 0,
        .scamp .iterate]).isSome := by decide +kernel
  refine ⟨_, (Option.some_get hRun).symm, (ballast_moves ?_ (Option.some_get hRun).symm).1⟩
  simp [Fair, BallastAction.Nums, isNum_num]

end BallastSystem

end Sailbot.Control
