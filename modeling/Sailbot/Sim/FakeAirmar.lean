import Sailbot.Control.LineCost
import Sailbot.Sensor.Messages

/-!
# The simulated weather station

`FakeAirmar` (`sim/fake_airmar.cc`). Every `Iterate` turns the true state of the boat and the true
wind into the messages of the real sensor: compass headings, the direction from which the wind
comes, and a rate of turn to the other side.

The arithmetic is any one, and `toFloat` is the rounding to `float`. The noise is zero.

* `FakeAirmar.calcNew` — a new reading by the last one and the truth.
* `FakeAirmar.iterate` — one `Iterate`, with the messages that it sends.
-/

namespace Sailbot

open Lib
open Lib.Arith (lit litf)

structure FakeAirmar (R : Type) [Arith R] where
  last     : CanMaster R := {}
  state    : BoatState R := {}
  wind     : Vector3f R := {}
  lat      : R := lit (42276126 / 10 ^ 6) * Arith.mPi / lit 180
  lon      : R := lit (-71756934 / 10 ^ 6) * Arith.mPi / lit 180
  latScale : R := lit 111078 / Arith.mPi * lit 180
  lonScale : R := lit (824996 / 10) / Arith.mPi * lit 180
  counter  : Nat := 0

namespace FakeAirmar

variable {R : Type} [Arith R]

/-- `set_gps_zero`. -/
def setGpsZero (s : FakeAirmar R) (lat lon : R) : FakeAirmar R :=
  let scale := Control.Util.gpsLatLonScale lat
  { s with lat := lat, lon := lon, latScale := scale.y, lonScale := scale.x }

def onTrueBoatState (s : FakeAirmar R) (msg : BoatState R) : FakeAirmar R := { s with state := msg }

def onTrueWind (s : FakeAirmar R) (msg : Vector3f R) : FakeAirmar R := { s with wind := msg }

def dt : R := litf (1 / 10)

def kTContinuous : R := litf (-21 / 10)

/-- `int(1 / dt)`. -/
def attitudePeriod : Nat := 10

/-- The noise. -/
def normal (_ : R) : R := litf 0

variable (toFloat : R → R)

def calcNew (last truth kT : R) : R :=
  let diff := toFloat (Control.Util.normAngle (toFloat (truth - last)))
  toFloat (Control.Util.normAngle (toFloat (last + toFloat (toFloat (lit 1 - kT) * diff))))

/-- The length of a vector, in the type `float`. -/
def lengthf (x y : R) : R := toFloat (Arith.sqrt (toFloat (toFloat (x * x) + toFloat (y * y))))

def kTdt : R := toFloat (lit 0 * Arith.exp (toFloat (dt * kTContinuous)))

def kT1Hz : R := toFloat (lit 0 * Arith.exp kTContinuous)

/-- The compass heading by the last one. -/
def newHeading (last : CanMaster R) (yaw : R) : R :=
  let heading := toFloat (Arith.mPi / lit 2 - yaw)
  calcNew toFloat (orZero (last.heading.bind VesselHeading.heading)) heading (kTdt toFloat)

def newAttitude (last : CanMaster R) (euler : EulerAngles R) : Attitude R :=
  let roll := toFloat (orZero euler.roll + normal (lit (5 / 100)))
  let pitch := toFloat (orZero euler.pitch + normal (lit (5 / 100)))
  { roll := some (calcNew toFloat (orZero (last.attitude.bind Attitude.roll)) roll (kT1Hz toFloat))
    pitch :=
      some (calcNew toFloat (orZero (last.attitude.bind Attitude.pitch)) pitch (kT1Hz toFloat)) }

def position (s : FakeAirmar R) : PosRapidUpdate R :=
  let x := orZero s.state.pos.x + normal (lit (1 / 2))
  let y := orZero s.state.pos.y + normal (lit (1 / 2))
  { lat := some (y / s.latScale + s.lat), lon := some (x / s.lonScale + s.lon) }

def course (vx vy : R) : CogSogRapidUpdate R where
  sog := some (toFloat (lengthf toFloat vx vy + normal (lit (1 / 10))))
  cog := some (toFloat (Arith.mPi / lit 2 - Arith.atan2f vy vx + normal (lit (5 / 100))))

/-- The message about the true wind. -/
def trueWind (windX windY : R) : WindData R where
  windSpeed := some (toFloat (lengthf toFloat windX windY + normal (lit (1 / 10))))
  windAngle := some (toFloat (Control.Util.normAngle
    (Arith.mPi / lit 2 - Arith.atan2f (-windY) (-windX) + normal (lit (5 / 100)))))
  reference := some .trueNorthRef

/-- The message about the apparent wind. -/
def apparentWind (windX windY vx vy yaw : R) : WindData R :=
  let wx := toFloat (windX - vx)
  let wy := toFloat (windY - vy)
  let alphaw := -Control.Util.normAngle (Arith.atan2 (-wy) (-wx) - yaw)
  { windSpeed := some (toFloat (Arith.sqrt (wx * wx + wy * wy)))
    windAngle := some (toFloat alphaw)
    reference := some .apparent }

/-- One `Iterate`: the new state and the messages, each with its number. Nothing is sent before the
state of the boat and the wind are known. -/
def iterate (s : FakeAirmar R) : FakeAirmar R × List (Nat × CanMaster R) :=
  match s.state.euler, s.wind.x with
  | some euler, some windX =>
    let yaw := orZero euler.yaw
    let heading : VesselHeading R := { heading := some (newHeading toFloat s.last yaw) }
    let rateTurn : RateOfTurn R :=
      { rate := some (toFloat (-orZero s.state.omega.z + normal (lit (5 / 100)))) }
    let atSecond := s.counter % attitudePeriod = 0
    let attitude := newAttitude toFloat s.last euler
    let pos := s.position
    let vx := orZero s.state.vel.x
    let vy := orZero s.state.vel.y
    let cog := course toFloat vx vy
    let windY := orZero s.wind.y
    let wind := trueWind toFloat windX windY
    let apparent := apparentWind toFloat windX windY vx vy yaw
    let last := { s.last with
      heading := some heading
      rateTurn := some rateTurn
      attitude := if atSecond then some attitude else s.last.attitude
      posRapidUpdate := some pos
      cogRapidUpdate := some cog
      windData := some apparent }
    let msgs := [(127250, { heading := some heading }), (127251, { rateTurn := some rateTurn })] ++
      (if atSecond then [(127257, { attitude := some attitude })] else []) ++
      [(129025, { posRapidUpdate := some pos }), (129026, { cogRapidUpdate := some cog }),
        (130306, { windData := some wind }), (130306, { windData := some apparent })]
    ({ s with last := last, counter := s.counter + 1 }, msgs)
  | _, _ => (s, [])

end FakeAirmar

end Sailbot
