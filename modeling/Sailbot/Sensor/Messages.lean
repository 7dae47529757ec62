import Sailbot.Lib.Arith

/-!
# Messages of the sensors

The messages with which the sensors and the simulator tell the state of the boat
(`control/actuator_cmd.proto`, `can/can.proto`), with the fields that are used here. Every field is
optional; a reader that does not ask takes a missing number for zero.

* `BoatState`, `InternalBoatState` — the state of the boat, and of its actuators.
* `CanMaster`                      — the contents of a message on the CAN bus.
-/

namespace Sailbot

open Lib

variable (R : Type)

/-- `Vector3f`, and `Vector3d`. -/
structure Vector3f where
  x : Option R := none
  y : Option R := none
  z : Option R := none
  deriving DecidableEq

structure Quaternion where
  w : Option R := none
  x : Option R := none
  y : Option R := none
  z : Option R := none
  deriving DecidableEq

structure EulerAngles where
  roll  : Option R := none
  pitch : Option R := none
  yaw   : Option R := none
  deriving DecidableEq

structure InternalBoatState where
  sail       : Option R := none
  rudder     : Option R := none
  ballast    : Option R := none
  saildot    : Option R := none
  rudderdot  : Option R := none
  ballastdot : Option R := none
  deriving DecidableEq

structure BoatState where
  pos         : Vector3f R := {}
  orientation : Quaternion R := {}
  vel         : Vector3f R := {}
  omega       : Vector3f R := {}
  internal    : InternalBoatState R := {}
  euler       : Option (EulerAngles R) := none
  deriving DecidableEq

-- ---------------------------------------------------------------------------
-- The CAN bus
-- ---------------------------------------------------------------------------

structure VesselHeading where
  heading : Option R := none
  deriving DecidableEq

structure RateOfTurn where
  rate : Option R := none
  deriving DecidableEq

structure Attitude where
  yaw   : Option R := none
  pitch : Option R := none
  roll  : Option R := none
  deriving DecidableEq

structure PosRapidUpdate where
  lat : Option R := none
  lon : Option R := none
  deriving DecidableEq

structure CogSogRapidUpdate where
  cog : Option R := none
  sog : Option R := none
  deriving DecidableEq

/-- `WindData.WIND_REFERENCE`. -/
inductive WindReference
  | trueNorthRef
  | magneticNorthRef
  | apparent
  | trueBoatRef
  | trueWaterRef
  deriving DecidableEq, Repr

structure WindData where
  windSpeed : Option R := none
  windAngle : Option R := none
  reference : Option WindReference := none
  deriving DecidableEq

structure BallastState where
  heel : Option R := none
  deriving DecidableEq

structure CanMaster where
  heading        : Option (VesselHeading R) := none
  rateTurn       : Option (RateOfTurn R) := none
  attitude       : Option (Attitude R) := none
  posRapidUpdate : Option (PosRapidUpdate R) := none
  cogRapidUpdate : Option (CogSogRapidUpdate R) := none
  windData       : Option (WindData R) := none
  ballastState   : Option (BallastState R) := none
  deriving DecidableEq

variable {R} [Arith R]

/-- What a getter returns. -/
def orZero (field : Option R) : R := field.getD (Arith.lit 0)

/-- `state.euler()`. -/
def BoatState.eulerAngles (s : BoatState R) : EulerAngles R := s.euler.getD {}

end Sailbot
