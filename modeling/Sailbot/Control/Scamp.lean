import Sailbot.Lib.Transition
import Sailbot.Control.ActuatorCmd

/-!
# The actuator node

`SCAMP` (`control/scamp.h`, `control/scamp.cc`): eleven message handlers and
`Iterate`, which sends the three raw servo values to the CAN bus. Every handler and
every `Iterate` is one step; a run is a list of messages in any order.

Undefined behaviour is the absence of a result: `step` is `none` where a number that
does not fit is converted to an `int`, where an `int` overflows, and where an SBUS
message is read behind its last channel.

The numbers that come out of SBUS channels are computed in exact arithmetic. All of
them are integers or at least 1/100 away from one, so that the rounding of `double`
does not show in their integer parts; the same holds for the volts of the winch,
which are integers in `-12 .. 12` when they are scaled.

Two history variables are kept: the latest reading of the winch pot, and whether the
source that the winch mode selects has sent a command since it was selected.

* `Scamp.step`         — the handlers and `Iterate`.
* `Scamp.Written`      — all ways in which the raw value of an actuator is written.
* `Scamp.raw_cases`    — what one step does to the mode and raw value of an actuator.
-/

namespace Sailbot.Control

open Lib

/-- A message on one of the queues, or an `Iterate`. -/
inductive ScampMsg
  | zeroingConsts (msg : ZeroingConstants)
  /-- `can65281`, the number of the pot. -/
  | analogPot (val : Nat)
  /-- `can65285`, the position of the ballast if it is set. -/
  | ballastState (ballast : Option Fp)
  | sailCmd (cmd : SailCmd)
  | manualSailCmd (cmd : SailCmd)
  | rudderCmd (cmd : RudderCmd)
  | manualRudderCmd (cmd : RudderCmd)
  | ballastCmd (cmd : BallastCmd)
  | manualBallastCmd (cmd : BallastCmd)
  | sbus (channel : List Int)
  | connectionStatus (connected : Bool)
  | controlMode (mode : ControlMode)
  | iterate

inductive Actuator
  | rudder
  | winch
  | ballast
  deriving DecidableEq, Repr

def PWMWrite.value (m : PWMWrite) : Actuator → Nat
  | .rudder => m.rudder
  | .winch => m.winch
  | .ballast => m.ballast

structure Scamp where
  sailPos     : Fp := .num 0
  ballastPos  : Fp := .num 0
  rawWinch    : Int := 90
  voltsWinch  : Int := 90
  rawRudder   : Int := 90
  rawBallast  : Int := 90
  rudderMode  : Mode := .disable
  winchMode   : Mode := .disable
  ballastMode : Mode := .disable
  isConnected : Bool := true
  consts      : ZeroingConstants
  stateQueue  : List InternalBoatState := []
  pwmQueue    : List PWMWrite := []
  constsQueue : List ZeroingConstants := []
  /-- What was written to the file of constants. -/
  constsFile  : List ZeroingConstants := []
  commanded   : Bool := false
  lastPot     : Option Nat := none
  deriving DecidableEq

namespace ZeroingConstants

/-- The constants when there is no file with them. -/
def initial (F : Formats) : ZeroingConstants where
  rudderZero := some 90
  ballastZero := some (.num (F.double.round (-1775 / 1000)))
  winch0Pot := some 392
  winch90Pot := some 750
  winchOutAngle := some (.num (mPi / 2))

def getRudderZero (c : ZeroingConstants) : Int := c.rudderZero.getD 0

def getWinch0Pot (c : ZeroingConstants) : Int := c.winch0Pot.getD 0

def getWinch90Pot (c : ZeroingConstants) : Int := c.winch90Pot.getD 0

def getBallastZero (c : ZeroingConstants) : Fp := c.ballastZero.getD (.num 0)

def getWinchOutAngle (c : ZeroingConstants) : Fp := c.winchOutAngle.getD (.num 0)

/-- The handler of `zeroing_consts` on the constants: the two ends of the pot are
taken together, and every other constant that is set. -/
def update (c msg : ZeroingConstants) : ZeroingConstants where
  winch0Pot := if msg.winch0Pot.isSome && msg.winch90Pot.isSome then msg.winch0Pot else c.winch0Pot
  winch90Pot :=
    if msg.winch0Pot.isSome && msg.winch90Pot.isSome then msg.winch90Pot else c.winch90Pot
  rudderZero := msg.rudderZero.or c.rudderZero
  ballastZero := msg.ballastZero.or c.ballastZero
  winchOutAngle := msg.winchOutAngle.or c.winchOutAngle
  writeConstants := c.writeConstants

end ZeroingConstants

/-- The result of an `int` operation; its overflow is undefined behaviour. -/
def inInt (n : Int) : Option Int := if -2 ^ 31 ≤ n ∧ n < 2 ^ 31 then some n else none

/-- `SBUSToRaw`. -/
def sbusToRaw (sbus : Int) : Int := truncate (((sbus : ℚ) - 1023) * 90 / 1000 + 90)

/-- `kPotRange`, the divisor of `WinchPotToAngle`. -/
def potRange (c : ZeroingConstants) : Option Int := inInt (c.getWinch90Pot - c.getWinch0Pot)

/-- `WinchPotToAngle` with the constants `c`. -/
def winchPotToAngle (F : Formats) (c : ZeroingConstants) (potVal : Fp) : Option Fp :=
  (potRange c).map fun potRange =>
    .conv F.float (.mul F.double
      (.div F.float (.sub F.float potVal (.ofInt F.float c.getWinch0Pot))
        (.ofInt F.float potRange))
      c.getWinchOutAngle)

/-- The raw value for a rudder command before it is converted to an `int`. -/
def rudderDegrees (F : Formats) (pos : Fp) (rudderZero : Int) : Fp :=
  .add F.double (.mul F.double (.div F.double pos (.num mPi)) (.num 180)) (.num rudderZero)

namespace Scamp

/-- The node after its constructor; `file` is what was read from the file of
constants, if it could be read. -/
def init (F : Formats) (file : Option ZeroingConstants) : Scamp where
  consts := file.getD (.initial F)

/-- `GetMode`. -/
def mode (s : Scamp) : Actuator → Mode
  | .rudder => s.rudderMode
  | .winch => s.winchMode
  | .ballast => s.ballastMode

def raw (s : Scamp) : Actuator → Int
  | .rudder => s.rawRudder
  | .winch => s.rawWinch
  | .ballast => s.rawBallast

-- ---------------------------------------------------------------------------
-- Commands
-- ---------------------------------------------------------------------------

/-- The volts for the winch within its travel, by the position of the sail. -/
def limitVolts (s : Scamp) (volts : Int) : Int :=
  if Fp.le s.consts.getWinchOutAngle s.sailPos then min volts 0
  else if Fp.le s.sailPos (.num 0) then max volts 0
  else volts

/-- The raw value for volts that are within the travel: a deadband, which has no
effect on whole volts, a limit, and the direction of the motor. -/
def winchRaw (c : ZeroingConstants) (volts : Int) : Int :=
  let volts := if |volts| < 1 then 0 else volts
  let volts := min (max volts (-12)) 12
  let volts := volts * (if c.getWinch90Pot > c.getWinch0Pot then -1 else 1)
  truncate ((volts : ℚ) / 12 * 90 + 90)

/-- Whole volts within the limits, scaled to `0 .. 180`. -/
theorem truncate_volts {volts : Int} (h : -12 ≤ volts) :
    truncate ((volts : ℚ) / 12 * 90 + 90) = 15 * volts / 2 + 90 := by
  have hLow : (-12 : ℚ) ≤ volts := by exact_mod_cast h
  have hHalf : (volts : ℚ) / 12 * 90 + 90 = ((15 * volts : Int) : ℚ) / (2 : Nat) + (90 : Int) := by
    push_cast
    ring
  rw [truncate, if_pos (by linarith), hHalf, Int.floor_add_intCast, Rat.floor_intCast_div_natCast]
  rfl

/-- The raw value is the volts within their limit, in the direction of the motor. -/
theorem winchRaw_eq (c : ZeroingConstants) (volts : Int) :
    winchRaw c volts =
      15 * (if c.getWinch0Pot < c.getWinch90Pot then -min (max volts (-12)) 12
        else min (max volts (-12)) 12) / 2 + 90 := by
  unfold winchRaw
  rw [truncate_volts]
  · simp only [Int.abs_lt_one_iff]
    split <;> split <;> omega
  · simp only [Int.abs_lt_one_iff]
    split <;> split <;> omega

def setRawFromSailCmd (s : Scamp) (volts : Int) : Scamp :=
  { s with rawWinch := winchRaw s.consts (s.limitVolts volts) }

def setRawFromRudderCmd (F : Formats) (s : Scamp) (cmd : RudderCmd) : Option Scamp :=
  (Fp.toInt (rudderDegrees F (cmd.pos.getD (.num 0)) s.consts.getRudderZero)).map fun n =>
    { s with rawRudder := n }

/-- The volts for the ballast within its travel. -/
def ballastVolts (F : Formats) (ballastPos voltage : Fp) : Fp :=
  let volts := Fp.max (Fp.min voltage (.num 12)) (.num (-12))
  if Fp.le (.num (F.double.round (11 / 10))) ballastPos then Fp.min volts (.num 0)
  else if Fp.le ballastPos (.num (F.double.round (-11 / 10))) then Fp.max volts (.num 0)
  else volts

/-- The raw value for the voltage of a ballast command. -/
def ballastDegrees (F : Formats) (volts : Fp) : Fp :=
  .add F.double (.div F.double (.mul F.double volts (.num 90)) (.num 12)) (.num 90)

def setRawFromBallastCmd (F : Formats) (s : Scamp) (cmd : BallastCmd) : Option Scamp :=
  match cmd.vel, cmd.voltage with
  | some vel, _ => (Fp.toInt (.add F.float vel (.num 90))).map fun n => { s with rawBallast := n }
  | none, some voltage =>
    (Fp.toInt (ballastDegrees F (ballastVolts F s.ballastPos voltage))).map fun n =>
      { s with rawBallast := n }
  | none, none => some s

-- ---------------------------------------------------------------------------
-- Handlers
-- ---------------------------------------------------------------------------

def onZeroingConsts (s : Scamp) (msg : ZeroingConstants) : Scamp :=
  { s with
    consts := s.consts.update msg
    constsFile := s.constsFile ++
      if msg.writeConstants.getD false then [s.consts.update msg] else [] }

def onAnalogPot (F : Formats) (s : Scamp) (val : Nat) : Option Scamp := do
  let angle ← winchPotToAngle F s.consts (.ofInt F.float val)
  let turned ← inInt (s.rawRudder - s.consts.getRudderZero)
  let rudder := Fp.div F.double (.mul F.double (.num turned) (.num mPi)) (.num 180)
  some { s with
    sailPos := angle
    stateQueue := s.stateQueue ++ [{ sail := some angle, rudder := some (.conv F.float rudder) }]
    lastPot := some val }

def onBallastState (F : Formats) (s : Scamp) : Option Fp → Scamp
  | none => s
  | some ballast =>
    let pos := Fp.conv F.float (.sub F.double ballast s.consts.getBallastZero)
    { s with ballastPos := pos, stateQueue := s.stateQueue ++ [{ ballast := some pos }] }

/-- The handlers of `sail_cmd` and `manual_sail_cmd`: the voltage is kept while the
winch is in the mode of the queue. -/
def acceptSailCmd (s : Scamp) (selected : Mode) (cmd : SailCmd) : Option Scamp :=
  if s.winchMode = selected then
    (Fp.toInt (cmd.voltage.getD (.num 0))).map fun volts =>
      { s with voltsWinch := volts, commanded := true }
  else some s

/-- The handlers of `rudder_cmd` and `manual_rudder_cmd`. -/
def acceptRudderCmd (F : Formats) (s : Scamp) (selected : Mode) (cmd : RudderCmd) :
    Option Scamp :=
  if s.rudderMode = selected then s.setRawFromRudderCmd F cmd else some s

/-- The handlers of `ballast_cmd` and `manual_ballast_cmd`. -/
def acceptBallastCmd (F : Formats) (s : Scamp) (selected : Mode) (cmd : BallastCmd) :
    Option Scamp :=
  if s.ballastMode = selected then s.setRawFromBallastCmd F cmd else some s

/-- The rudder's part of the `sbus_value` handler. -/
def sbusRudder (s : Scamp) (channel : List Int) : Option Scamp :=
  match s.rudderMode with
  | .manualRc => channel[3]?.map fun c =>
      { s with rawRudder := truncate (((sbusToRaw c : ℚ) - 90) * (1 / 2) + 90) }
  | .filteredRc => channel[3]?.bind fun c =>
      (Fp.toInt (.num (-((sbusToRaw c : ℚ) - 90) * (6 / 10) + s.consts.getRudderZero))).map
        fun n => { s with rawRudder := n }
  | _ => some s

/-- The winch's part of the `sbus_value` handler. -/
def sbusWinch (s : Scamp) (channel : List Int) : Option Scamp :=
  match s.winchMode with
  | .manualRc => channel[1]?.map fun c => { s with rawWinch := sbusToRaw c }
  | .filteredRc => channel[1]?.map fun c =>
      { s with
        voltsWinch := truncate (-((sbusToRaw c : ℚ) - 90) * 6 / 90)
        commanded := true }
  | _ => some s

/-- The size test asks for two channels, but the rudder is read from the fourth. -/
def onSbus (s : Scamp) (channel : List Int) : Option Scamp :=
  if channel.length ≥ 2 then (s.sbusRudder channel).bind fun s => s.sbusWinch channel else some s

/-- A raw value after a change of modes. -/
def neutralIfDisabled (mode : Mode) (raw : Int) : Int := if mode = .disable then 90 else raw

def onControlMode (s : Scamp) (mode : ControlMode) : Scamp :=
  let winchMode := mode.winchMode.getD s.winchMode
  let rudderMode := mode.rudderMode.getD s.rudderMode
  let ballastMode := mode.ballastMode.getD s.ballastMode
  { s with
    winchMode := winchMode
    rudderMode := rudderMode
    ballastMode := ballastMode
    rawRudder := neutralIfDisabled rudderMode s.rawRudder
    rawWinch := neutralIfDisabled winchMode s.rawWinch
    rawBallast := neutralIfDisabled ballastMode s.rawBallast
    commanded := s.commanded && winchMode == s.winchMode }

/-- The modes in which the winch follows the volts of its selected source. -/
def FollowsVolts (m : Mode) : Prop := m = .auto ∨ m = .manualWifi ∨ m = .filteredRc

instance (m : Mode) : Decidable (FollowsVolts m) := inferInstanceAs (Decidable (_ ∨ _))

/-- The part of `Iterate` in front of the message. -/
def updateWinch (s : Scamp) : Scamp :=
  if FollowsVolts s.winchMode then s.setRawFromSailCmd s.voltsWinch else s

/-- The message that the next `Iterate` sends. -/
def pwmMsg (s : Scamp) : PWMWrite where
  winch := toUInt32 s.updateWinch.rawWinch
  rudder := toUInt32 s.rawRudder
  ballast := toUInt32 s.rawBallast

def iterate (s : Scamp) : Scamp :=
  { s.updateWinch with
    pwmQueue := s.pwmQueue ++ [s.pwmMsg]
    constsQueue := s.constsQueue ++ [s.consts] }

def step (F : Formats) (s : Scamp) : ScampMsg → Option Scamp
  | .zeroingConsts msg => some (s.onZeroingConsts msg)
  | .analogPot val => s.onAnalogPot F val
  | .ballastState ballast => some (s.onBallastState F ballast)
  | .sailCmd cmd => s.acceptSailCmd .auto cmd
  | .manualSailCmd cmd => s.acceptSailCmd .manualWifi cmd
  | .rudderCmd cmd => s.acceptRudderCmd F .auto cmd
  | .manualRudderCmd cmd => s.acceptRudderCmd F .manualWifi cmd
  | .ballastCmd cmd => s.acceptBallastCmd F .auto cmd
  | .manualBallastCmd cmd => s.acceptBallastCmd F .manualWifi cmd
  | .sbus channel => s.onSbus channel
  | .connectionStatus connected => some { s with isConnected := connected }
  | .controlMode mode => some (s.onControlMode mode)
  | .iterate => some s.iterate

-- ---------------------------------------------------------------------------
-- What one step does
-- ---------------------------------------------------------------------------

/-- The message is a rudder command of the source that the rudder mode selects. -/
def AcceptsRudder (s : Scamp) (a : ScampMsg) (cmd : RudderCmd) : Prop :=
  (a = .rudderCmd cmd ∧ s.rudderMode = .auto) ∨
    (a = .manualRudderCmd cmd ∧ s.rudderMode = .manualWifi)

/-- The message is a sail command of the source that the winch mode selects. -/
def AcceptsSail (s : Scamp) (a : ScampMsg) (cmd : SailCmd) : Prop :=
  (a = .sailCmd cmd ∧ s.winchMode = .auto) ∨
    (a = .manualSailCmd cmd ∧ s.winchMode = .manualWifi)

/-- The message is a ballast command of the source that the ballast mode selects. -/
def AcceptsBallast (s : Scamp) (a : ScampMsg) (cmd : BallastCmd) : Prop :=
  (a = .ballastCmd cmd ∧ s.ballastMode = .auto) ∨
    (a = .manualBallastCmd cmd ∧ s.ballastMode = .manualWifi)

/-- The message writes `n` to the raw value of an actuator. A change of modes, which
only ever writes the neutral value, is not one of the ways. -/
inductive Written (F : Formats) (s : Scamp) : ScampMsg → Actuator → Int → Prop
  | rudderCmd {a : ScampMsg} {cmd : RudderCmd} {n : Int} (accepts : s.AcceptsRudder a cmd)
      (value : Fp.toInt (rudderDegrees F (cmd.pos.getD (.num 0)) s.consts.getRudderZero) = some n) :
      Written F s a .rudder n
  | ballastVel {a : ScampMsg} {cmd : BallastCmd} {vel : Fp} {n : Int}
      (accepts : s.AcceptsBallast a cmd) (isVel : cmd.vel = some vel)
      (value : Fp.toInt (.add F.float vel (.num 90)) = some n) : Written F s a .ballast n
  | ballastVoltage {a : ScampMsg} {cmd : BallastCmd} {voltage : Fp} {n : Int}
      (accepts : s.AcceptsBallast a cmd)
      (value : Fp.toInt (ballastDegrees F (ballastVolts F s.ballastPos voltage)) = some n) :
      Written F s a .ballast n
  | manualRudder {channel : List Int} {c : Int} (selected : s.rudderMode = .manualRc)
      (isChannel : channel[3]? = some c) :
      Written F s (.sbus channel) .rudder (truncate (((sbusToRaw c : ℚ) - 90) * (1 / 2) + 90))
  | filteredRudder {channel : List Int} {c n : Int} (selected : s.rudderMode = .filteredRc)
      (isChannel : channel[3]? = some c)
      (value : Fp.toInt (.num (-((sbusToRaw c : ℚ) - 90) * (6 / 10) + s.consts.getRudderZero))
        = some n) :
      Written F s (.sbus channel) .rudder n
  | manualWinch {channel : List Int} {c : Int} (selected : s.winchMode = .manualRc)
      (isChannel : channel[1]? = some c) : Written F s (.sbus channel) .winch (sbusToRaw c)
  | volts (selected : FollowsVolts s.winchMode) :
      Written F s .iterate .winch (winchRaw s.consts (s.limitVolts s.voltsWinch))

/-- Nothing is written to an actuator that is disabled. -/
theorem Written.enabled {F : Formats} {s : Scamp} {a : ScampMsg} {act : Actuator} {n : Int}
    (h : Written F s a act n) : s.mode act ≠ .disable := by
  intro hDis
  cases h with
  | rudderCmd accepts _ =>
    rcases accepts with ⟨_, hMode⟩ | ⟨_, hMode⟩ <;> exact absurd (hMode.symm.trans hDis) (by decide)
  | ballastVel accepts _ _ | ballastVoltage accepts _ =>
    rcases accepts with ⟨_, hMode⟩ | ⟨_, hMode⟩ <;> exact absurd (hMode.symm.trans hDis) (by decide)
  | manualRudder selected _ | filteredRudder selected _ _ | manualWinch selected _ =>
    exact absurd (selected.symm.trans hDis) (by decide)
  | volts selected =>
    rw [show s.winchMode = .disable from hDis] at selected
    exact absurd selected (by decide)

section Frame

variable {F : Formats} {s s' : Scamp} {a : ScampMsg}

/-- Nothing of an actuator changed, or its raw value was written by `a`. -/
def Wrote (F : Formats) (s : Scamp) (a : ScampMsg) (s' : Scamp) (act : Actuator) : Prop :=
  s'.mode act = s.mode act ∧ (s'.raw act = s.raw act ∨ Written F s a act (s'.raw act))

/-- What every handler but the one for modes keeps. -/
structure Handled (F : Formats) (s : Scamp) (a : ScampMsg) (s' : Scamp) : Prop where
  queue : s'.pwmQueue = s.pwmQueue
  wrote : ∀ act, Wrote F s a s' act

/-- A step that keeps modes and raw values writes to no actuator. -/
theorem Handled.of_eq (hQueue : s'.pwmQueue = s.pwmQueue) (hMode : s'.mode = s.mode)
    (hRaw : s'.raw = s.raw) : Handled F s a s' :=
  ⟨hQueue, fun act => ⟨congrFun hMode act, .inl (congrFun hRaw act)⟩⟩

/-- A handler may do nothing. -/
theorem Handled.refl : Handled F s a s := .of_eq rfl rfl rfl

/-- A handler may write the rudder. -/
theorem Handled.rudder {n : Int} (h : Written F s a .rudder n) :
    Handled F s a { s with rawRudder := n } := by
  refine ⟨rfl, ?_⟩
  intro act
  cases act with
  | rudder => exact ⟨rfl, .inr h⟩
  | winch | ballast => exact ⟨rfl, .inl rfl⟩

/-- A handler may write the ballast. -/
theorem Handled.ballast {n : Int} (h : Written F s a .ballast n) :
    Handled F s a { s with rawBallast := n } := by
  refine ⟨rfl, ?_⟩
  intro act
  cases act with
  | ballast => exact ⟨rfl, .inr h⟩
  | winch | rudder => exact ⟨rfl, .inl rfl⟩

/-- The winch's pot writes nothing to an actuator. -/
theorem onAnalogPot_handled {val : Nat} (h : s.onAnalogPot F val = some s') :
    Handled F s a s' := by
  simp only [onAnalogPot, Option.bind_eq_bind, Option.bind_eq_some_iff, Option.some.injEq] at h
  obtain ⟨angle, _, turned, _, rfl⟩ := h
  exact .of_eq (by rfl) (by rfl) (by rfl)

/-- A sail command writes nothing itself, but keeps the volts. -/
theorem acceptSailCmd_handled {m : Mode} {cmd : SailCmd} (h : s.acceptSailCmd m cmd = some s') :
    Handled F s a s' := by
  unfold acceptSailCmd at h
  split at h
  · obtain ⟨volts, _, rfl⟩ := Option.map_eq_some_iff.mp h
    exact .of_eq (by rfl) (by rfl) (by rfl)
  · cases h
    exact .refl

/-- A rudder command writes the rudder, if its source is selected. -/
theorem acceptRudderCmd_handled {m : Mode} {cmd : RudderCmd}
    (hAccepts : s.rudderMode = m → s.AcceptsRudder a cmd)
    (h : s.acceptRudderCmd F m cmd = some s') : Handled F s a s' := by
  unfold acceptRudderCmd at h
  split at h
  · next hMode =>
    obtain ⟨n, hn, rfl⟩ := Option.map_eq_some_iff.mp h
    exact .rudder (.rudderCmd (hAccepts hMode) hn)
  · cases h
    exact .refl

/-- A ballast command writes the ballast, if its source is selected. -/
theorem acceptBallastCmd_handled {m : Mode} {cmd : BallastCmd}
    (hAccepts : s.ballastMode = m → s.AcceptsBallast a cmd)
    (h : s.acceptBallastCmd F m cmd = some s') : Handled F s a s' := by
  unfold acceptBallastCmd at h
  split at h
  · next hMode =>
    unfold setRawFromBallastCmd at h
    split at h
    · next hVel =>
      obtain ⟨n, hn, rfl⟩ := Option.map_eq_some_iff.mp h
      exact .ballast (.ballastVel (hAccepts hMode) hVel hn)
    · obtain ⟨n, hn, rfl⟩ := Option.map_eq_some_iff.mp h
      exact .ballast (.ballastVoltage (hAccepts hMode) hn)
    · cases h
      exact .refl
  · cases h
    exact .refl

/-- The rudder's part of the `sbus_value` handler changes nothing but the rudder. -/
theorem sbusRudder_wrote {channel : List Int} (h : s.sbusRudder channel = some s') :
    (∃ n, s' = { s with rawRudder := n }) ∧ Wrote F s (.sbus channel) s' .rudder := by
  unfold sbusRudder at h
  split at h
  · next hMode =>
    obtain ⟨c, hc, rfl⟩ := Option.map_eq_some_iff.mp h
    exact ⟨⟨_, rfl⟩, rfl, .inr (.manualRudder hMode hc)⟩
  · next hMode =>
    obtain ⟨c, hc, h⟩ := Option.bind_eq_some_iff.mp h
    obtain ⟨n, hn, rfl⟩ := Option.map_eq_some_iff.mp h
    exact ⟨⟨n, rfl⟩, rfl, .inr (.filteredRudder hMode hc hn)⟩
  · cases h
    exact ⟨⟨s.rawRudder, rfl⟩, rfl, .inl rfl⟩

/-- The winch's part changes nothing but the winch. -/
theorem sbusWinch_wrote {channel : List Int} (h : s.sbusWinch channel = some s') :
    (∃ raw volts commanded,
      s' = { s with rawWinch := raw, voltsWinch := volts, commanded := commanded }) ∧
      Wrote F s (.sbus channel) s' .winch := by
  unfold sbusWinch at h
  split at h
  · next hMode =>
    obtain ⟨c, hc, rfl⟩ := Option.map_eq_some_iff.mp h
    exact ⟨⟨_, _, _, rfl⟩, rfl, .inr (.manualWinch hMode hc)⟩
  · obtain ⟨c, hc, rfl⟩ := Option.map_eq_some_iff.mp h
    exact ⟨⟨_, _, _, rfl⟩, rfl, .inl rfl⟩
  · cases h
    exact ⟨⟨_, _, _, rfl⟩, rfl, .inl rfl⟩

/-- An SBUS message writes what is in a manual mode. -/
theorem onSbus_handled {channel : List Int} (h : s.onSbus channel = some s') :
    Handled F s (.sbus channel) s' := by
  unfold onSbus at h
  split at h
  · obtain ⟨t, hRudder, hWinch⟩ := Option.bind_eq_some_iff.mp h
    obtain ⟨⟨n, rfl⟩, hRudder⟩ := sbusRudder_wrote (F := F) hRudder
    obtain ⟨⟨raw, volts, commanded, rfl⟩, hWinch⟩ := sbusWinch_wrote (F := F) hWinch
    refine ⟨rfl, ?_⟩
    intro act
    cases act with
    | rudder => exact hRudder
    | ballast => exact ⟨rfl, .inl rfl⟩
    | winch =>
      -- the winch was written in the state after the rudder's part
      refine ⟨rfl, hWinch.2.imp_right ?_⟩
      intro hWritten
      cases hWritten with
      | manualWinch selected isChannel => exact .manualWinch selected isChannel
  · cases h
    exact .refl

/-- A step is a handler that keeps the modes, a change of modes, or an `Iterate`. -/
theorem step_cases (h : step F s a = some s') :
    Handled F s a s' ∨ (∃ mode, a = .controlMode mode ∧ s' = s.onControlMode mode) ∨
      (a = .iterate ∧ s' = s.iterate) := by
  cases a with
  | zeroingConsts msg | connectionStatus connected =>
    cases h
    exact .inl (.of_eq (by rfl) (by rfl) (by rfl))
  | ballastState ballast =>
    cases h
    cases ballast <;> exact .inl (.of_eq (by rfl) (by rfl) (by rfl))
  | analogPot val => exact .inl (onAnalogPot_handled h)
  | sailCmd cmd | manualSailCmd cmd => exact .inl (acceptSailCmd_handled h)
  | rudderCmd cmd => exact .inl (acceptRudderCmd_handled (fun hMode => .inl ⟨rfl, hMode⟩) h)
  | manualRudderCmd cmd =>
    exact .inl (acceptRudderCmd_handled (fun hMode => .inr ⟨rfl, hMode⟩) h)
  | ballastCmd cmd => exact .inl (acceptBallastCmd_handled (fun hMode => .inl ⟨rfl, hMode⟩) h)
  | manualBallastCmd cmd =>
    exact .inl (acceptBallastCmd_handled (fun hMode => .inr ⟨rfl, hMode⟩) h)
  | sbus channel => exact .inl (onSbus_handled h)
  | controlMode mode => exact .inr (.inl ⟨mode, rfl, (Option.some.inj h).symm⟩)
  | iterate => exact .inr (.inr ⟨rfl, (Option.some.inj h).symm⟩)

/-- An `Iterate` writes the winch from its volts. -/
theorem iterate_wrote (act : Actuator) : Wrote F s .iterate s.iterate act := by
  unfold iterate updateWinch
  split
  · next hVolts =>
    cases act with
    | winch => exact ⟨rfl, .inr (.volts hVolts)⟩
    | rudder | ballast => exact ⟨rfl, .inl rfl⟩
  · exact ⟨by cases act <;> rfl, .inl (by cases act <;> rfl)⟩

/-- What a step does to one actuator: it keeps the mode, and the raw value if it does
not write it, or it is a change of modes. -/
theorem raw_cases (h : step F s a = some s') (act : Actuator) :
    Wrote F s a s' act ∨ s'.raw act = neutralIfDisabled (s'.mode act) (s.raw act) := by
  rcases step_cases h with hHandled | ⟨mode, rfl, rfl⟩ | ⟨rfl, rfl⟩
  · exact .inl (hHandled.wrote act)
  · right
    cases act <;> rfl
  · exact .inl (iterate_wrote act)

/-- What an `Iterate` sends are the raw values after it. -/
theorem pwmMsg_value (act : Actuator) : s.pwmMsg.value act = toUInt32 (s.iterate.raw act) := by
  cases act with
  | winch => rfl
  | rudder | ballast =>
    unfold iterate updateWinch
    split <;> rfl

/-- The messages to the servos that a step sends. -/
def published (s s' : Scamp) : List PWMWrite := s'.pwmQueue.drop s.pwmQueue.length

/-- A step sends nothing, or is an `Iterate` that sends its one message. -/
theorem published_cases (h : step F s a = some s') :
    (s'.pwmQueue = s.pwmQueue ∧ published s s' = []) ∨
      (a = .iterate ∧ s'.pwmQueue = s.pwmQueue ++ [s.pwmMsg] ∧ published s s' = [s.pwmMsg]) := by
  rcases step_cases h with hHandled | ⟨mode, rfl, rfl⟩ | ⟨rfl, rfl⟩
  · left
    rw [published, hHandled.queue]
    exact ⟨rfl, List.drop_length⟩
  · exact .inl ⟨rfl, List.drop_length⟩
  · exact .inr ⟨rfl, rfl, List.drop_left⟩

/-- What a step sends, for a property of the message of an `Iterate`. -/
theorem forall_published_iff {P : PWMWrite → Prop} :
    (∀ s', step F s a = some s' → ∀ m ∈ published s s', P m) ↔ (a = .iterate → P s.pwmMsg) := by
  constructor
  · rintro h rfl
    exact h s.iterate rfl _ (by simp [published, iterate])
  · intro h s' hstep m hm
    rcases published_cases hstep with ⟨_, hNil⟩ | ⟨rfl, _, hOne⟩
    · rw [hNil] at hm
      exact absurd hm List.not_mem_nil
    · rw [hOne, List.mem_singleton] at hm
      exact hm ▸ h rfl

end Frame

end Scamp

end Sailbot.Control
