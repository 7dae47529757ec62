import Sailbot.Control.LinePlan
import Sailbot.Lib.Loop
import Sailbot.Sensor.Messages

/-!
# The tacker along a line

`LineTacker` (`control/line_tacking.h`, `control/line_tacking.cc`): the handlers of its messages and
`Iterate`, each of which is one step. The waypoints are kept in arrays of ten elements. A list of
waypoints that is not restarted goes on at the waypoint where the last one was.

The arithmetic is any one; `toFloat` is the rounding to `float`. An access outside of an array and a
remainder by zero are the absence of a result. The members that the constructor does not initialize
have any value at the beginning.

* `LineTacker.processWaypoints` — a list of waypoints.
* `LineTacker.goalHeading`      — the next heading, and whether the last waypoint is reached.
* `LineTacker.step`             — the handlers and `Iterate`.
-/

namespace Sailbot.Control

open Lib
open Lib.Arith (lit litf)

structure TackerConstants (R : Type) where
  closeHaulAngle : R
  inIronsCost    : R
  nearGoalCost   : R
  hysteresisCost : R
  diffYawCost    : R
  momentumCost   : R
  tackingCost    : R

structure LineTacker (R : Type) where
  waypoints       : List (Vec R)
  bounds          : List R
  waypointMoe     : List R
  i               : Int := 0
  msgIOffset      : Int := 0
  wayLen          : Int := 0
  recalcZero      : Bool := false
  repeats         : Bool := false
  curPos          : Vec R
  curDist         : R
  windDir         : R
  apparentWindDir : R
  curTheta        : R
  curSpeed        : R
  curYawRate      : R
  tackMode        : Tacker := .none
  consts          : TackerConstants R
  heading         : R
  constsQueue     : List (TackerConstants R) := []
  headingQueue    : List R := []
  stateQueue      : List TackerState := []
  /-- The length of the list that was received last. -/
  listSize        : Int := 0

inductive LineTackerMsg (R : Type)
  | waypoints (msg : WaypointList R)
  | tackerConsts (msg : TackerConstants R)
  | trueWind (msg : Vector3f R)
  | wind (msg : Vector3f R)
  | boatState (msg : BoatState R)
  | controlMode (mode : ControlMode)
  | iterate

namespace LineTacker

variable {R : Type} [Arith R]

/-- `N_WAYPOINTS`. -/
def nWaypoints : Int := 10

def kWindTol : R := litf (1 / 10)

/-- `%`, for which zero is no divisor. -/
def modulo (a b : Int) : Option Int := if b = 0 then none else some (Int.tmod a b)

/-- The constants of the constructor. -/
def initConsts : TackerConstants R where
  closeHaulAngle := litf (9 / 10)
  inIronsCost := litf 3
  nearGoalCost := litf 3
  hysteresisCost := litf (13 / 10)
  diffYawCost := litf 1
  momentumCost := litf 1
  tackingCost := litf 0

-- ---------------------------------------------------------------------------
-- Waypoints
-- ---------------------------------------------------------------------------

/-- The index of the first point of a list that is used. -/
def starti (s : LineTacker R) (msg : WaypointList R) : Int :=
  if msg.restart then 0 else s.msgIOffset + s.i

/-- The number of waypoints in front of those of the list. -/
def offsetOf (msg : WaypointList R) : Nat := if msg.definedStart then 0 else 1

/-- The number of points of the list that are used. -/
def cnt (s : LineTacker R) (msg : WaypointList R) : Int :=
  min (msg.points.length - s.starti msg) (nWaypoints - offsetOf msg)

/-- The loop of `ProcessWaypoints`. -/
def copyPoints (s : LineTacker R) (msg : WaypointList R) : Option (List (Vec R)) :=
  (List.range (s.cnt msg).toNat).foldlM (fun waypoints (i : Nat) => do
    let point ← atInt msg.points (i + s.starti msg)
    setAt waypoints (i + offsetOf msg) point) s.waypoints

/-- `ProcessWaypoints`. -/
def processWaypoints (s : LineTacker R) (msg : WaypointList R) : Option (LineTacker R) :=
  (s.copyPoints msg).map fun waypoints => { s with
    waypoints := waypoints
    recalcZero := !msg.definedStart
    repeats := msg.repeats
    i := 0
    msgIOffset := s.starti msg
    wayLen := s.cnt msg + offsetOf msg
    listSize := msg.points.length }

/-- The members before a file is read; `s` has the values of those that are not initialized. -/
def fresh (s : LineTacker R) : LineTacker R where
  waypoints := s.waypoints.take 10 ++ List.replicate (10 - s.waypoints.length) .zero
  bounds := List.replicate 10 (litf 20)
  waypointMoe := (List.replicate 10 (litf 10)).set 3 (litf 50)
  curPos := .zero
  curDist := s.curDist
  windDir := litf 0
  apparentWindDir := s.apparentWindDir
  curTheta := litf 0
  curSpeed := s.curSpeed
  curYawRate := s.curYawRate
  consts := initConsts
  heading := litf 0
  constsQueue := [initConsts]

/-- Zero for the members that the constructor does not initialize. -/
def zeroed : LineTacker R where
  waypoints := List.replicate 10 .zero
  bounds := []
  waypointMoe := []
  curPos := .zero
  curDist := lit 0
  windDir := lit 0
  apparentWindDir := lit 0
  curTheta := lit 0
  curSpeed := lit 0
  curYawRate := lit 0
  consts := initConsts
  heading := lit 0

/-- The node after its constructor; `file` is the list that was read, if there was one. -/
def init (s : LineTacker R) : Option (WaypointList R) → Option (LineTacker R)
  | some msg => s.fresh.processWaypoints msg
  | none => some s.fresh

-- ---------------------------------------------------------------------------
-- Rewards
-- ---------------------------------------------------------------------------

variable (toFloat : R → R) (s : LineTacker R)

def inIronsReward (heading : R) : R :=
  let upwind := toFloat (Util.normAngle (s.windDir - Arith.mPi))
  let abswdiff := toFloat (Arith.abs (Util.normAngle (toFloat (heading - upwind))))
  toFloat (Arith.min (toFloat (abswdiff * litf 2) / Arith.mPi) (lit 1))

/-- One minus the square of a number. -/
def falloff (diff : R) : R := toFloat (lit 1 - toFloat (diff * diff))

/-- The difference of two headings, in half turns. -/
def halfTurns (heading other : R) : R :=
  toFloat (Util.normAngle (toFloat (heading - other)) / Arith.mPi)

def desirabilityReward (heading nominalHeading : R) : R :=
  toFloat (falloff toFloat (halfTurns toFloat heading nominalHeading) *
    Arith.max (Arith.min (s.curDist / lit 20) (lit 3)) (lit (33 / 100)))

def momentumReward (heading : R) : R :=
  let diff := halfTurns toFloat heading s.curTheta
  let normYawRate :=
    toFloat (s.curYawRate / Arith.mPi * (if Arith.lt (lit 0) diff then lit 1 else lit (-1)))
  toFloat (falloff toFloat diff * normYawRate)

def costToGoReward (heading : R) : R := falloff toFloat (halfTurns toFloat heading s.curTheta)

def requiresTackingReward (heading : R) : R :=
  let diff := toFloat (Util.normAngle (toFloat (heading - s.curTheta)))
  let wdiff := toFloat (Util.normAngle (toFloat (s.curTheta - s.windDir) + Arith.mPi))
  let b := toFloat (wdiff + diff)
  Arith.abs (toFloat (toFloat (toFloat (b - wdiff) - toFloat (Arith.sin b)) +
    toFloat (Arith.sin wdiff)))

def indecisionReward (heading : R) : R := falloff toFloat (halfTurns toFloat heading s.heading)

def isValidHeading (heading : R) : Bool :=
  !Arith.lt (Arith.abs (Util.normAngle (toFloat (heading - s.windDir) + Arith.mPi)))
    (Arith.mPi / lit 4)

def reward (nominalHeading h : R) : R :=
  let c := s.consts
  [c.nearGoalCost * desirabilityReward toFloat s h nominalHeading,
    c.hysteresisCost * indecisionReward toFloat s h, c.diffYawCost * costToGoReward toFloat s h,
    c.momentumCost * momentumReward toFloat s h,
    c.tackingCost * requiresTackingReward toFloat s h].foldl
      (fun sum x => toFloat (sum + toFloat x)) (toFloat (c.inIronsCost * inIronsReward toFloat s h))

/-- The heading with the highest positive reward, if a valid one has one. -/
def bestHeading (nominalHeading : R) (headings : List R) : R :=
  (headings.foldl (fun (best : R × R) h =>
    let reward := reward toFloat s nominalHeading h
    if isValidHeading toFloat s h && Arith.lt best.1 reward then (reward, h) else best)
    (litf 0, nominalHeading)).2

-- ---------------------------------------------------------------------------
-- Headings
-- ---------------------------------------------------------------------------

/-- `DistanceFromLine`. -/
def distanceFromLine (start endPt loc : Vec R) : R :=
  let eps : R := lit (1 / 1000)
  if Arith.lt (Arith.abs (endPt.y - start.y)) eps then
    toFloat ((start.y + endPt.y) / lit 2 - loc.y)
  else if Arith.lt (Arith.abs (endPt.x - start.x)) eps then
    toFloat ((start.x + endPt.x) / lit 2 - loc.x)
  else
    let perpSlope := toFloat (-(endPt.x - start.x) / (endPt.y - start.y))
    let perpIntercept := toFloat (loc.y - perpSlope * loc.x)
    let origSlope := toFloat (litf (-1) / perpSlope)
    let origIntercept := toFloat (endPt.y - origSlope * endPt.x)
    let x := toFloat (toFloat (perpIntercept - origIntercept) / toFloat (origSlope - perpSlope))
    let y := toFloat (toFloat (perpSlope * x) + perpIntercept)
    let dx := toFloat (x - loc.x)
    let dy := toFloat (y - loc.y)
    let dist := toFloat (Arith.sqrt (toFloat (toFloat (dx * dx) + toFloat (dy * dy))))
    toFloat (dist * (if Arith.lt (lit 0) dx then litf 1 else litf (-1)))

/-- What `GoalHeading` reads of the arrays: a leg and the margin around its end. -/
structure Leg (R : Type) where
  start : Vec R
  endPt : Vec R
  moe   : R

def leg : Option (Leg R) := do
  let next ← modulo (s.i + 1) s.wayLen
  let start ← atInt s.waypoints s.i
  let endPt ← atInt s.waypoints next
  let moe ← atInt s.waypointMoe next
  return { start := start, endPt := endPt, moe := moe }

/-- The distance to a point, in its unit. -/
def distTo (endPt : Vec R) : R :=
  let dy := toFloat (endPt.y - s.curPos.y)
  let dx := toFloat (endPt.x - s.curPos.x)
  toFloat (Arith.sqrt (toFloat (toFloat (dy * dy) + toFloat (dx * dx))))

def headingTo (endPt : Vec R) : R :=
  toFloat (Arith.atan2f (toFloat (endPt.y - s.curPos.y)) (toFloat (endPt.x - s.curPos.x)))

/-- Meters per unit of a position. -/
def avgscale : R :=
  let scale := Util.gpsLatLonScale s.curPos.y
  (scale.y + scale.x) * lit (1 / 2)

/-- The boat is within the margin around a point. -/
def isNear (endPt : Vec R) (moe : R) : Bool :=
  Arith.lt (distTo toFloat s endPt) (moe / avgscale s)

/-- The next index, and whether the last waypoint is reached. -/
def advance (near : Bool) : Option (Int × Bool) :=
  if near then
    if s.i < s.wayLen - 2 then some (s.i + 1, false)
    else if s.repeats then (modulo (s.i + 1) s.wayLen).map fun i => (i, true)
    else some (s.i, true)
  else some (s.i, false)

def lineHeading (leg : Leg R) (nominalHeading upwind minClosehaul maxClosehaul : R) : Option R := do
  let goalWindDiff := toFloat (Util.normAngle (toFloat (nominalHeading - upwind)))
  if Arith.lt (toFloat (s.consts.closeHaulAngle + kWindTol)) (Arith.abs goalWindDiff) then
    return nominalHeading
  let distToLine :=
    toFloat (distanceFromLine toFloat leg.start leg.endPt s.curPos * avgscale s)
  let bound ← atInt s.bounds s.i
  if Arith.le bound (Arith.abs distToLine) then
    return (if Arith.lt (lit 0) (Util.normAngle (toFloat (s.windDir - nominalHeading)))
      then maxClosehaul else minClosehaul)
  let apparentWind := toFloat (Util.normAngle s.apparentWindDir)
  if Arith.lt (Arith.abs apparentWind) (Arith.mPi / lit 2) then
    return (if Arith.lt apparentWind (lit 0) then minClosehaul else maxClosehaul)
  let diffMinClose := toFloat (Arith.abs (Util.normAngle (toFloat (minClosehaul - s.curTheta))))
  let diffMaxClose := toFloat (Arith.abs (Util.normAngle (toFloat (maxClosehaul - s.curTheta))))
  return (if Arith.lt diffMinClose diffMaxClose then minClosehaul else maxClosehaul)

/-- The heading by the mode, after the index was moved on. -/
def chooseHeading (leg : Leg R) : Option R :=
  let upwind := toFloat (Util.normAngle (s.windDir - Arith.mPi))
  let minClosehaul := toFloat (Util.normAngle (toFloat (upwind - s.consts.closeHaulAngle)))
  let maxClosehaul := toFloat (Util.normAngle (toFloat (upwind + s.consts.closeHaulAngle)))
  let nominalHeading := headingTo toFloat s leg.endPt
  match s.tackMode with
  | .reward =>
    some (bestHeading toFloat s nominalHeading
      [nominalHeading, s.heading, minClosehaul, maxClosehaul])
  | .line => lineHeading toFloat s leg nominalHeading upwind minClosehaul maxClosehaul
  | _ => some nominalHeading

/-- The first waypoint is where the boat is, unless the list has a start point. -/
def recalc : Option (LineTacker R) :=
  if s.recalcZero then (setAt s.waypoints 0 s.curPos).map fun w => { s with waypoints := w }
  else some s

/-- `GoalHeading`, with the state that it publishes. -/
def goalHeading : Option (LineTacker R × R) := do
  let s ← recalc s
  let leg ← leg s
  let (i, done) ← advance s (isNear toFloat s leg.endPt leg.moe)
  let s := { s with
    curDist := toFloat (distTo toFloat s leg.endPt * avgscale s)
    i := i
    stateQueue := s.stateQueue ++ [{ done := some done, lastWaypoint := some i }] }
  let heading ← chooseHeading toFloat s leg
  return (s, heading)

/-- `Iterate`. -/
def iterate : Option (LineTacker R) :=
  if s.wayLen = 0 then some s
  else if s.tackMode = .disabled then some s
  else
    (goalHeading toFloat s).map fun (s, gh) =>
      let sends := s.tackMode = .line ∨ s.tackMode = .reward ∨ s.tackMode = .none
      { s with
        heading := toFloat gh
        headingQueue := s.headingQueue ++ if sends then [toFloat gh] else []
        constsQueue := s.constsQueue ++ [s.consts] }

/-- The handlers and `Iterate`. -/
def step : LineTackerMsg R → Option (LineTacker R)
  | .waypoints msg => processWaypoints s msg
  | .tackerConsts msg => some { s with consts := msg }
  | .trueWind msg => some { s with windDir := Arith.atan2f (orZero msg.y) (orZero msg.x) }
  | .wind msg => some { s with apparentWindDir := Arith.atan2f (orZero msg.y) (orZero msg.x) }
  | .boatState msg => some { s with
      curTheta := orZero msg.eulerAngles.yaw
      curSpeed := litf 10
      curPos := ⟨orZero msg.pos.x, orZero msg.pos.y⟩
      curYawRate := toFloat (Util.normAngle (orZero msg.omega.z)) }
  | .controlMode mode => some { s with tackMode := mode.tacker.getD s.tackMode }
  | .iterate => iterate toFloat s

end LineTacker

end Sailbot.Control
