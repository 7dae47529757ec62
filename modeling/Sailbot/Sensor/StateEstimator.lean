import Sailbot.Control.Attitude
import Sailbot.Control.LineCost
import Sailbot.Lib.Loop
import Sailbot.Sensor.Messages

/-!
# The state estimator

`StateEstimator` (`sensor/state_estimator.cc`). Every message of a sensor sets a part of the state,
and `Iterate` publishes the state. Messages about the wind are published at once. The sensors give
compass headings, and the directions from which the wind comes.

The arithmetic is any one; `toFloat` is the rounding to `float`, `toQuat` the conversion of a matrix
to a quaternion, and `now` the time in nanoseconds.

* `StateEstimator.handle`  — one message.
* `StateEstimator.iterate` — one `Iterate`.
* `StateEstimator.handleAll_sets` — what a list of messages sets, whatever their order is, if only
  one of them sets it.
-/

namespace Sailbot

open Lib
open Lib.Arith (lit)

variable {R : Type} [Arith R]

structure StateEstimator (R : Type) where
  eulerAngles          : Vec3 R
  omega                : Vec3 R
  pos                  : Vec3 R
  vel                  : Vec3 R
  stateMsg             : BoatState R := {}
  windMsg              : Vector3f R := {}
  lastInclinometer     : R
  lastBallast          : R
  lastBallastTime      : Int := 0
  lastInclinometerTime : Int := 0
  stateQueue           : List (BoatState R) := []
  windQueue            : List (Vector3f R) := []
  trueWindQueue        : List (Vector3f R) := []
  deriving DecidableEq

/-- What the estimator gets: a message of the CAN bus by its number, or the internal state. -/
inductive SensorMsg (R : Type)
  | can (pgn : Nat) (msg : CanMaster R)
  | internalState (msg : InternalBoatState R)
  deriving DecidableEq

namespace StateEstimator

variable (toFloat : R → R)

def onHeading (s : StateEstimator R) (msg : CanMaster R) : StateEstimator R :=
  match msg.heading.bind VesselHeading.heading with
  | some heading =>
    { s with eulerAngles := { s.eulerAngles with z := -heading + Arith.mPi / lit 2 } }
  | none => s

def onRateTurn (s : StateEstimator R) (msg : CanMaster R) : StateEstimator R :=
  match msg.rateTurn.bind RateOfTurn.rate with
  | some rate => { s with omega := { s.omega with z := -rate } }
  | none => s

def onAttitude (s : StateEstimator R) (msg : CanMaster R) : StateEstimator R :=
  match msg.attitude.bind Attitude.pitch with
  | some pitch => { s with eulerAngles := { s.eulerAngles with y := pitch } }
  | none => s

def onPosition (s : StateEstimator R) (msg : CanMaster R) : StateEstimator R :=
  match msg.posRapidUpdate.bind PosRapidUpdate.lat, msg.posRapidUpdate.bind PosRapidUpdate.lon with
  | some lat, some lon => { s with pos := { s.pos with x := lon, y := lat } }
  | _, _ => s

/-- The velocity by the speed and the course of a message. -/
def velocityOf (speed cog : R) : R × R :=
  let heading := toFloat (Arith.mPi / lit 2 - cog)
  (toFloat (speed * toFloat (Arith.cos heading)), toFloat (speed * toFloat (Arith.sin heading)))

def onVelocity (s : StateEstimator R) (msg : CanMaster R) : StateEstimator R :=
  match msg.cogRapidUpdate.bind CogSogRapidUpdate.sog,
      msg.cogRapidUpdate.bind CogSogRapidUpdate.cog with
  | some sog, some cog =>
    let (vx, vy) := velocityOf toFloat sog cog
    { s with vel := { s.vel with x := vx, y := vy } }
  | _, _ => s

/-- The vector of the wind by the speed, the angle and the reference of a message. -/
def windOf (windSpeed windAngle : R) (reference : WindReference) : Vector3f R :=
  let trueWind := reference != .apparent
  let speed := -windSpeed
  let dir := -windAngle
  let dir := if trueWind then toFloat (dir + Arith.mPi / lit 2) else dir
  { x := some (toFloat (speed * toFloat (Arith.cos dir)))
    y := some (toFloat (speed * toFloat (Arith.sin dir)))
    z := some (lit 0) }

def onWind (s : StateEstimator R) (msg : CanMaster R) : StateEstimator R :=
  match msg.windData.bind WindData.windSpeed, msg.windData.bind WindData.windAngle,
      msg.windData.bind WindData.reference with
  | some windSpeed, some windAngle, some reference =>
    let windMsg := windOf toFloat windSpeed windAngle reference
    if reference = .apparent then
      { s with windMsg := windMsg, windQueue := s.windQueue ++ [windMsg] }
    else { s with windMsg := windMsg, trueWindQueue := s.trueWindQueue ++ [windMsg] }
  | _, _, _ => s

/-- A time difference in seconds, at least a millisecond. -/
def seconds (nanoseconds : Int) : R := Arith.max (lit nanoseconds / lit (10 ^ 9)) (lit (1 / 1000))

def onInternalState (now : Int) (s : StateEstimator R) (msg : InternalBoatState R) :
    StateEstimator R :=
  let internal := { s.stateMsg.internal with
    sail := msg.sail.or s.stateMsg.internal.sail
    rudder := msg.rudder.or s.stateMsg.internal.rudder }
  match msg.ballast with
  | some ballastAngle =>
    let dt := seconds (now - s.lastBallastTime)
    let ballastdot := (ballastAngle - s.lastBallast) / dt
    let ballastdot := orZero internal.ballastdot * lit (1 / 2) + lit (1 / 2) * ballastdot
    { s with
      stateMsg := { s.stateMsg with
        internal := { internal with
          ballast := some ballastAngle, ballastdot := some (toFloat ballastdot) } }
      lastBallast := ballastAngle
      lastBallastTime := now }
  | none => { s with stateMsg := { s.stateMsg with internal := internal } }

def onBallastState (now : Int) (s : StateEstimator R) (msg : CanMaster R) : StateEstimator R :=
  match msg.ballastState.bind BallastState.heel with
  | some heel =>
    let dt := seconds (now - s.lastInclinometerTime)
    { s with
      eulerAngles := { s.eulerAngles with x := heel }
      omega := { s.omega with
        x := s.omega.x + lit (1 / 2) * ((heel - s.lastInclinometer) / dt - s.omega.x) }
      lastInclinometer := heel
      lastInclinometerTime := now }
  | none => s

/-- The handler of a message. -/
def handle (now : Int) (s : StateEstimator R) : SensorMsg R → StateEstimator R
  | .can pgn msg =>
    if pgn = 127250 then s.onHeading msg
    else if pgn = 127251 then s.onRateTurn msg
    else if pgn = 127257 then s.onAttitude msg
    else if pgn = 129025 then s.onPosition msg
    else if pgn = 129026 then s.onVelocity toFloat msg
    else if pgn = 130306 then s.onWind toFloat msg
    else if pgn = 65285 then s.onBallastState now msg
    else s
  | .internalState msg => s.onInternalState toFloat now msg

/-- `EigenToProto`. -/
def toProto (v : Vec3 R) : Vector3f R where
  x := some (toFloat v.x)
  y := some (toFloat v.y)
  z := some (toFloat v.z)

def iterate (toQuat : Mat3 R → Vec3 R × R) (s : StateEstimator R) : StateEstimator R :=
  let (v, w) := toQuat (Control.Util.rollPitchYawToMatrix s.eulerAngles)
  let stateMsg : BoatState R := { s.stateMsg with
    omega := toProto toFloat s.omega
    pos := toProto id s.pos
    vel := toProto toFloat s.vel
    euler := some {
      roll := some (toFloat s.eulerAngles.x)
      pitch := some (toFloat s.eulerAngles.y)
      yaw := some (toFloat s.eulerAngles.z) }
    orientation := {
      w := some (toFloat w), x := some (toFloat v.x), y := some (toFloat v.y),
      z := some (toFloat v.z) } }
  { s with stateMsg := stateMsg, stateQueue := s.stateQueue ++ [stateMsg] }

/-- Messages one after the other, each with the time at which it is handled. -/
def handleAll (s : StateEstimator R) (msgs : List (Int × SensorMsg R)) : StateEstimator R :=
  msgs.foldl (fun s m => s.handle toFloat m.1 m.2) s

-- ---------------------------------------------------------------------------
-- What a message sets
-- ---------------------------------------------------------------------------

/-- The yaw by a message. -/
def yawOf : SensorMsg R → Option R
  | .can pgn msg =>
    if pgn = 127250 then
      (msg.heading.bind VesselHeading.heading).map fun heading => -heading + Arith.mPi / lit 2
    else none
  | .internalState _ => none

/-- The horizontal velocity by a message. -/
def velOf : SensorMsg R → Option (R × R)
  | .can pgn msg =>
    if pgn = 129026 then
      (msg.cogRapidUpdate.bind CogSogRapidUpdate.sog).bind fun sog =>
        (msg.cogRapidUpdate.bind CogSogRapidUpdate.cog).map fun cog => velocityOf toFloat sog cog
    else none
  | .internalState _ => none

/-- The wind by a message, if its reference is one that `keep` says. -/
def windMsgOf (keep : WindReference → Bool) : SensorMsg R → Option (Vector3f R)
  | .can pgn msg =>
    if pgn = 130306 then
      (msg.windData.bind WindData.windSpeed).bind fun windSpeed =>
        (msg.windData.bind WindData.windAngle).bind fun windAngle =>
          (msg.windData.bind WindData.reference).bind fun reference =>
            if keep reference then some (windOf toFloat windSpeed windAngle reference) else none
    else none
  | .internalState _ => none

/-- What a message has set on the way from `s` to `t`. -/
structure Sets (s t : StateEstimator R) (m : SensorMsg R) : Prop where
  yaw      : t.eulerAngles.z = (yawOf m).getD s.eulerAngles.z
  vel      : (t.vel.x, t.vel.y) = (velOf toFloat m).getD (s.vel.x, s.vel.y)
  wind     : t.windQueue = s.windQueue ++ (windMsgOf toFloat (· == .apparent) m).toList
  trueWind : t.trueWindQueue = s.trueWindQueue ++ (windMsgOf toFloat (· != .apparent) m).toList

variable {toFloat} {now : Int} {s t : StateEstimator R} {m : SensorMsg R} {msg : CanMaster R}

/-- A message that sets none of the four. -/
theorem sets_none (hYaw : yawOf m = none) (hVel : velOf toFloat m = none)
    (hWind : ∀ keep, windMsgOf toFloat keep m = none) (hYaw' : t.eulerAngles.z = s.eulerAngles.z)
    (hVel' : (t.vel.x, t.vel.y) = (s.vel.x, s.vel.y)) (hWind' : t.windQueue = s.windQueue)
    (hTrueWind' : t.trueWindQueue = s.trueWindQueue) : Sets toFloat s t m where
  yaw := by rw [hYaw, hYaw', Option.getD_none]
  vel := by rw [hVel, hVel', Option.getD_none]
  wind := by rw [hWind, hWind', Option.toList_none, List.append_nil]
  trueWind := by rw [hWind, hTrueWind', Option.toList_none, List.append_nil]

theorem onHeading_sets : Sets toFloat s (s.onHeading msg) (.can 127250 msg) := by
  have hYaw : yawOf (.can 127250 msg) = (msg.heading.bind VesselHeading.heading).map
      fun heading => -heading + Arith.mPi / lit 2 := rfl
  rw [onHeading]
  cases hHeading : msg.heading.bind VesselHeading.heading with
  | none => exact sets_none (by rw [hYaw, hHeading]; rfl) rfl (fun _ => rfl) rfl rfl rfl rfl
  | some heading =>
    refine ⟨?_, rfl, (List.append_nil _).symm, (List.append_nil _).symm⟩
    rw [hYaw, hHeading]
    rfl

theorem onVelocity_sets : Sets toFloat s (s.onVelocity toFloat msg) (.can 129026 msg) := by
  have hVel : velOf toFloat (.can 129026 msg) =
      (msg.cogRapidUpdate.bind CogSogRapidUpdate.sog).bind fun sog =>
        (msg.cogRapidUpdate.bind CogSogRapidUpdate.cog).map fun cog =>
          velocityOf toFloat sog cog := rfl
  rw [onVelocity]
  cases hSog : msg.cogRapidUpdate.bind CogSogRapidUpdate.sog with
  | none => exact sets_none rfl (by rw [hVel, hSog]; rfl) (fun _ => rfl) rfl rfl rfl rfl
  | some sog =>
    cases hCog : msg.cogRapidUpdate.bind CogSogRapidUpdate.cog with
    | none => exact sets_none rfl (by rw [hVel, hSog, hCog]; rfl) (fun _ => rfl) rfl rfl rfl rfl
    | some cog =>
      refine ⟨rfl, ?_, (List.append_nil _).symm, (List.append_nil _).symm⟩
      rw [hVel, hSog, hCog]
      rfl

theorem onWind_sets : Sets toFloat s (s.onWind toFloat msg) (.can 130306 msg) := by
  have hWind : ∀ keep, windMsgOf toFloat keep (.can 130306 msg) =
      (msg.windData.bind WindData.windSpeed).bind fun windSpeed =>
        (msg.windData.bind WindData.windAngle).bind fun windAngle =>
          (msg.windData.bind WindData.reference).bind fun reference =>
            if keep reference then some (windOf toFloat windSpeed windAngle reference)
            else none := fun _ => rfl
  rw [onWind]
  cases hSpeed : msg.windData.bind WindData.windSpeed with
  | none => exact sets_none rfl rfl (fun _ => by rw [hWind, hSpeed]; rfl) rfl rfl rfl rfl
  | some windSpeed =>
    cases hAngle : msg.windData.bind WindData.windAngle with
    | none => exact sets_none rfl rfl (fun _ => by rw [hWind, hSpeed, hAngle]; rfl) rfl rfl rfl rfl
    | some windAngle =>
      cases hRef : msg.windData.bind WindData.reference with
      | none =>
        exact sets_none rfl rfl (fun _ => by rw [hWind, hSpeed, hAngle, hRef]; rfl) rfl rfl rfl rfl
      | some reference =>
        have hOne : ∀ keep, windMsgOf toFloat keep (.can 130306 msg) =
            if keep reference then some (windOf toFloat windSpeed windAngle reference)
            else none := fun keep => by rw [hWind, hSpeed, hAngle, hRef]; rfl
        cases reference with
        | apparent =>
          refine ⟨rfl, rfl, ?_, ?_⟩
          · rw [hOne]
            rfl
          · rw [hOne]
            exact (List.append_nil _).symm
        | trueNorthRef | magneticNorthRef | trueBoatRef | trueWaterRef =>
          refine ⟨rfl, rfl, ?_, ?_⟩
          · rw [hOne]
            exact (List.append_nil _).symm
          · rw [hOne]
            rfl

variable (toFloat now s m) in
/-- Every message sets what it says and leaves the rest alone. -/
theorem handle_sets : Sets toFloat s (s.handle toFloat now m) m := by
  cases m with
  | internalState msg =>
    refine sets_none rfl rfl (fun _ => rfl) ?_ ?_ ?_ ?_ <;>
      · simp only [handle, onInternalState]
        split <;> rfl
  | can pgn msg =>
    rw [handle]
    split_ifs with hHeading hTurn hAttitude hPosition hVelocity hWind hBallast
    · exact hHeading ▸ onHeading_sets
    · subst hTurn
      refine sets_none rfl rfl (fun _ => rfl) ?_ ?_ ?_ ?_ <;>
        · rw [onRateTurn]
          split <;> rfl
    · subst hAttitude
      refine sets_none rfl rfl (fun _ => rfl) ?_ ?_ ?_ ?_ <;>
        · rw [onAttitude]
          split <;> rfl
    · subst hPosition
      refine sets_none rfl rfl (fun _ => rfl) ?_ ?_ ?_ ?_ <;>
        · rw [onPosition]
          split <;> rfl
    · exact hVelocity ▸ onVelocity_sets
    · exact hWind ▸ onWind_sets
    · subst hBallast
      refine sets_none rfl rfl (fun _ => rfl) ?_ ?_ ?_ ?_ <;>
        · rw [onBallastState]
          split <;> rfl
    · exact sets_none (if_neg hHeading) (if_neg hVelocity) (fun _ => if_neg hWind) rfl rfl rfl rfl

/-- Messages in any order, of which one sets the yaw and one the velocity. The messages about the
wind are published. -/
theorem handleAll_sets {msgs : List (Int × SensorMsg R)} {sent : List (SensorMsg R)}
    (hMsgs : (msgs.map Prod.snd).Perm sent) {yaw : R} {vel : R × R} {wind trueWind : Vector3f R}
    (hYaw : sent.filterMap yawOf = [yaw]) (hVel : sent.filterMap (velOf toFloat) = [vel])
    (hWind : sent.filterMap (windMsgOf toFloat (· == .apparent)) = [wind])
    (hTrueWind : sent.filterMap (windMsgOf toFloat (· != .apparent)) = [trueWind]) :
    let t := s.handleAll toFloat msgs
    t.eulerAngles.z = yaw ∧ (t.vel.x, t.vel.y) = vel ∧ t.windQueue = s.windQueue ++ [wind] ∧
      t.trueWindQueue = s.trueWindQueue ++ [trueWind] := by
  have hOrder : ∀ {β : Type} {f : SensorMsg R → Option β} {v : β}, sent.filterMap f = [v] →
      msgs.filterMap (fun m => f m.2) = [v] := by
    intro β f v hSent
    have hPerm := hMsgs.filterMap f
    rw [hSent, List.filterMap_map, List.perm_singleton] at hPerm
    exact hPerm
  refine ⟨?_, ?_, ?_, ?_⟩
  · exact foldl_getD (g := fun s => s.eulerAngles.z)
      (fun s m => (handle_sets toFloat m.1 s m.2).yaw) (hOrder hYaw)
  · exact foldl_getD (g := fun s => (s.vel.x, s.vel.y))
      (fun s m => (handle_sets toFloat m.1 s m.2).vel) (hOrder hVel)
  · rw [← hOrder hWind]
    exact foldl_toList (g := windQueue) fun s m => (handle_sets toFloat m.1 s m.2).wind
  · rw [← hOrder hTrueWind]
    exact foldl_toList (g := trueWindQueue) fun s m => (handle_sets toFloat m.1 s m.2).trueWind

end StateEstimator

end Sailbot
