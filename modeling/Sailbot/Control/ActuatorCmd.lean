import Sailbot.Lib.Fp

/-!
# Messages of the control nodes

The messages of `control/actuator_cmd.proto` that the modelled nodes exchange, and
`PWMWrite` of `can/can.proto`. An optional field that is not set is `none`; its
default is what the accessor gives then. Fields of type `float` and `double` are
floating-point numbers, `int32` fields are integers.
-/

namespace Sailbot.Control

open Lib

/-- `ControlMode.MODE`. -/
inductive Mode
  | manualRc
  | auto
  | manualWifi
  | disable
  | filteredRc
  deriving DecidableEq, Repr

/-- `ControlMode.TACKER`. -/
inductive Tacker
  | none
  | line
  | reward
  | disabled
  | linePlan
  deriving DecidableEq, Repr

structure ControlMode where
  winchMode   : Option Mode := .none
  tacker      : Option Tacker := .none
  rudderMode  : Option Mode := .none
  rigidMode   : Option Mode := .none
  ballastMode : Option Mode := .none
  deriving DecidableEq, Repr

structure SailCmd where
  vel     : Option Fp := .none
  voltage : Option Fp := .none
  pos     : Option Fp := .none

structure RudderCmd where
  vel : Option Fp := .none
  pos : Option Fp := .none

structure BallastCmd where
  vel     : Option Fp := .none
  voltage : Option Fp := .none

structure HeadingCmd where
  heading   : Option Fp := .none
  extraSail : Option Fp := .none
  deriving DecidableEq

structure ZeroingConstants where
  rudderZero     : Option Int := .none
  winch0Pot      : Option Int := .none
  winch90Pot     : Option Int := .none
  ballastZero    : Option Fp := .none
  winchOutAngle  : Option Fp := .none
  writeConstants : Option Bool := .none
  deriving DecidableEq

structure InternalBoatState where
  sail    : Option Fp := .none
  rudder  : Option Fp := .none
  ballast : Option Fp := .none
  deriving DecidableEq

structure TackerState where
  done         : Option Bool := .none
  lastWaypoint : Option Int := .none
  nearWaypoint : Option Bool := .none

/-- `ChallengeControl.ChallengeType`. -/
inductive ChallengeType
  | stationKeep
  | waypoint
  | vision
  | obstacle
  deriving DecidableEq, Repr

structure VisionData where
  heading    : Option Fp := .none
  confidence : Option Fp := .none

/-- `SearchState.STATE`. -/
inductive SearchState
  | noTarget
  | goingToBuoy
  | atBuoy
  deriving DecidableEq, Repr

/-- The numbers sent to the three servos; the fields are of type `uint32`. -/
structure PWMWrite where
  winch   : Nat
  rudder  : Nat
  ballast : Nat
  deriving DecidableEq, Repr

/-- The conversion of an `int` to `uint32`. -/
def toUInt32 (n : Int) : Nat := (n % 2 ^ 32).toNat

/-- `M_PI`. -/
def mPi : ℚ := 884279719003555 / 281474976710656

end Sailbot.Control
