import Sailbot.Control.ActuatorCmd
import Sailbot.Control.LineCost
import Sailbot.RigidWing.Command
import Sailbot.Sensor.Messages

/-!
# The controller of sail and rudder

`SimpleControl` (`control/simple.cc`). Every `Iterate` computes a voltage for the winch of the sail
and a position of the rudder from the state of the boat, the apparent wind and the heading that is
asked for.

The arithmetic is any one; `toFloat` is the rounding to `float`.

* `SimpleControl.Inputs`   — all the numbers that `Iterate` reads.
* `SimpleControl.sailErr`, `voltage`, `goalRudder` — what it computes from them.
* `SimpleControl.iterate`  — one `Iterate`.
* `SimpleControl.handle`   — one message.
-/

namespace Sailbot.Control

open Lib
open Lib.Arith (lit litf)

namespace SimpleControl

structure SailCmd (R : Type) where
  voltage : R
  pos     : R

structure RudderCmd (R : Type) where
  pos : R
  vel : R

/-- The part of a `RigidWingCmd` that is changed while running. -/
structure RigidCmd (R : Type) where
  state    : WingState := .manual
  heel     : R
  maxHeel  : R
  servoPos : R

/-- The constants that `SimpleControl` uses. -/
structure Consts (R : Type) where
  maxRudder              : Option R := none
  rudderKp               : Option R := none
  rudderKi               : Option R := none
  winchKp                : Option R := none
  sailHeelK              : Option R := none
  nominalHeel            : Option R := none
  rigidPortServoPos      : Option R := none
  rigidStarboardServoPos : Option R := none

/-- All the numbers that `Iterate` reads. -/
structure Inputs (R : Type) where
  vx                     : R
  vy                     : R
  yaw                    : R
  heel                   : R
  sail                   : R
  rudder                 : R
  windX                  : R
  windY                  : R
  heading                : R
  extraSail              : R
  rudderIntegrator       : R
  maxRudder              : R
  rudderKp               : R
  rudderKi               : R
  winchKp                : R
  sailHeelK              : R
  nominalHeel            : R
  rigidPortServoPos      : R
  rigidStarboardServoPos : R

/-- The same numbers in another arithmetic. -/
def Inputs.map {R S : Type} (f : R → S) (i : Inputs R) : Inputs S where
  vx := f i.vx
  vy := f i.vy
  yaw := f i.yaw
  heel := f i.heel
  sail := f i.sail
  rudder := f i.rudder
  windX := f i.windX
  windY := f i.windY
  heading := f i.heading
  extraSail := f i.extraSail
  rudderIntegrator := f i.rudderIntegrator
  maxRudder := f i.maxRudder
  rudderKp := f i.rudderKp
  rudderKi := f i.rudderKi
  winchKp := f i.winchKp
  sailHeelK := f i.sailHeelK
  nominalHeel := f i.nominalHeel
  rigidPortServoPos := f i.rigidPortServoPos
  rigidStarboardServoPos := f i.rigidStarboardServoPos

end SimpleControl

open SimpleControl

structure SimpleControl (R : Type) where
  doRudder         : Bool := false
  boatState        : BoatState R := {}
  consts           : Consts R
  rigidMsg         : RigidCmd R
  counter          : Nat := 0
  heading          : R
  extraSail        : R
  windX            : R
  windY            : R
  autoRigidWing    : Bool := true
  rudderIntegrator : R
  sailCmds         : List (SimpleControl.SailCmd R) := []
  rudderCmds       : List (SimpleControl.RudderCmd R) := []
  heelCmds         : List R := []
  rigidCmds        : List (RigidCmd R) := []
  constsQueue      : List (Consts R) := []

namespace SimpleControl

variable {R : Type} [Arith R]

/-- The node after its constructor. -/
def init (doRudder : Bool) : SimpleControl R :=
  let consts : Consts R := {
    maxRudder := some (litf (1 / 2)), rudderKp := some (litf (1 / 2))
    rudderKi := some (litf (2 / 100)), winchKp := some (litf 13), sailHeelK := some (litf 0)
    nominalHeel := some (litf 0), rigidPortServoPos := some (litf 15)
    rigidStarboardServoPos := some (litf 85) }
  { doRudder := doRudder
    consts := consts
    rigidMsg := { heel := litf 0, maxHeel := litf 1, servoPos := lit 0 }
    heading := litf 0
    extraSail := litf 0
    windX := litf 0
    windY := litf 0
    rudderIntegrator := lit 0
    constsQueue := [consts] }

def inputs (s : SimpleControl R) : Inputs R where
  vx := orZero s.boatState.vel.x
  vy := orZero s.boatState.vel.y
  yaw := orZero s.boatState.eulerAngles.yaw
  heel := orZero s.boatState.eulerAngles.roll
  sail := orZero s.boatState.internal.sail
  rudder := orZero s.boatState.internal.rudder
  windX := s.windX
  windY := s.windY
  heading := s.heading
  extraSail := s.extraSail
  rudderIntegrator := s.rudderIntegrator
  maxRudder := orZero s.consts.maxRudder
  rudderKp := orZero s.consts.rudderKp
  rudderKi := orZero s.consts.rudderKi
  winchKp := orZero s.consts.winchKp
  sailHeelK := orZero s.consts.sailHeelK
  nominalHeel := orZero s.consts.nominalHeel
  rigidPortServoPos := orZero s.consts.rigidPortServoPos
  rigidStarboardServoPos := orZero s.consts.rigidStarboardServoPos

-- ---------------------------------------------------------------------------
-- Sail and rudder
-- ---------------------------------------------------------------------------

def dt : R := litf (1 / 100)

/-- `int(.1 / dt)`. -/
def rigidPeriod : Nat := 10

variable (toFloat : R → R) (i : Inputs R)

def headingErr : R := Util.normAngle (toFloat (i.heading - i.yaw))

def alphaw : R := toFloat (Util.normAngle (Arith.atan2f i.windY (-i.windX)))

def windSourceDir : R := Arith.atan2f (-i.windY) (-i.windX)

def turningSail : R :=
  (if Arith.lt (lit 0) (alphaw toFloat i) then lit 1 else lit (-1)) * lit (9 / 10) *
    Util.clip (headingErr toFloat i) (lit (-1 / 2)) (lit (1 / 2))

/-- The position of the sail that is asked for. -/
def goal : R :=
  toFloat (Arith.min (Arith.max (Arith.abs (alphaw toFloat i) - lit (8 / 10)) (lit 0))
      (lit (3 / 2)) +
    toFloat (i.sailHeelK * Arith.abs i.heel) + i.extraSail + turningSail toFloat i)

def sailErr : R := toFloat (Util.normAngle (toFloat (goal toFloat i - i.sail)))

def voltage : R :=
  let sailErr := sailErr toFloat i
  toFloat (toFloat (i.winchKp * sailErr) / toFloat (Arith.sqrt (Arith.abs sailErr)))

def maxRudder : R :=
  let vel := toFloat (Arith.sqrt (toFloat (toFloat (i.vx * i.vx) + toFloat (i.vy * i.vy))))
  if Arith.lt vel (lit 0) then lit (3 / 10)
  else if Arith.lt vel (lit 1) then i.maxRudder else lit (8 / 10) * i.maxRudder

/-- The integral of the heading error. -/
def newIntegrator : R :=
  Util.clip (i.rudderIntegrator + headingErr toFloat i * dt) (lit (-3 / 2)) (lit (3 / 2))

def goalRudder : R :=
  -Util.clip (i.rudderKp * headingErr toFloat i + i.rudderKi * newIntegrator toFloat i)
    (-maxRudder toFloat i) (maxRudder toFloat i)

/-- The heel that is asked for, unless the wind comes from behind. -/
def heelGoal : R :=
  i.nominalHeel * Util.sign (windSourceDir i) +
    lit 0 * Util.clip (lit 1 * headingErr toFloat i) (lit (-1 / 4)) (lit (1 / 4))

def servoPos : R :=
  Arith.trunc (if Arith.lt (lit 0) (windSourceDir i) then i.rigidPortServoPos
    else i.rigidStarboardServoPos)

/-- One `Iterate`. -/
def iterate (s : SimpleControl R) : SimpleControl R :=
  let counter := s.counter + 1
  let i := s.inputs
  let sailMsg : SailCmd R := { voltage := voltage toFloat i, pos := goal toFloat i }
  let rigidMsg :=
    if s.autoRigidWing then { s.rigidMsg with servoPos := servoPos i } else s.rigidMsg
  let rudderMsg : RudderCmd R := {
    pos := toFloat (goalRudder toFloat i)
    vel := toFloat (lit 1 * (goalRudder toFloat i - i.rudder)) }
  { s with
    counter := counter
    rigidMsg := rigidMsg
    rudderIntegrator := newIntegrator toFloat i
    sailCmds := s.sailCmds ++ [sailMsg]
    rigidCmds := s.rigidCmds ++
      if s.autoRigidWing && counter % rigidPeriod = 0 then [rigidMsg] else []
    rudderCmds := s.rudderCmds ++ if s.doRudder then [rudderMsg] else []
    heelCmds := s.heelCmds ++
      if Arith.lt (lit (14 / 10)) (Arith.abs (alphaw toFloat i)) then [toFloat (heelGoal toFloat i)]
      else []
    constsQueue := s.constsQueue ++ if counter % 100 = 0 then [s.consts] else [] }

-- ---------------------------------------------------------------------------
-- Messages
-- ---------------------------------------------------------------------------

inductive SimpleMsg (R : Type)
  | boatState (msg : BoatState R)
  | controlConsts (msg : Consts R)
  | wind (msg : Vector3f R)
  | headingCmd (heading extraSail : Option R)
  | controlMode (mode : ControlMode)
  | sbusValue (channel : List Int)

/-- Constants are taken over if they have the fields that are asked for. -/
def Consts.accepted (msg : Consts R) : Bool :=
  msg.maxRudder.isSome && msg.rudderKp.isSome && msg.winchKp.isSome && msg.sailHeelK.isSome &&
    msg.rigidPortServoPos.isSome && msg.rigidStarboardServoPos.isSome && msg.nominalHeel.isSome

/-- The handler of a message. A message of the receiver without a second channel has no result. -/
def handle (s : SimpleControl R) : SimpleMsg R → Option (SimpleControl R)
  | .boatState msg => some { s with boatState := msg }
  | .controlConsts msg => some (if msg.accepted then { s with consts := msg } else s)
  | .wind msg => some { s with windX := orZero msg.x, windY := orZero msg.y }
  | .headingCmd heading extraSail => some { s with
      heading := heading.getD s.heading
      extraSail := extraSail.getD s.extraSail
      rudderIntegrator := lit 0 }
  | .controlMode mode =>
    match mode.rigidMode with
    | some rigidMode => some { s with autoRigidWing := rigidMode == .auto }
    | none => some s
  | .sbusValue channel =>
    channel[1]?.map fun (c : Int) =>
      { s with rigidMsg := { s.rigidMsg with
          servoPos := Arith.trunc (lit (c : ℚ) * lit 100 / lit 2050) } }

end SimpleControl

end Sailbot.Control
