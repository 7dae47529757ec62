import Sailbot.Lib.Transition
import Sailbot.Control.ActuatorCmd

/-!
# The waypoint manager

`WaypointManager` (`control/waypoint_manager.h`, `control/waypoint_manager.cc`): six
message handlers, and `Iterate`, which runs the state machine of the challenge that was
selected last. Every handler and every `Iterate` is one step. What the node publishes
is kept in `out` in the order of publication; `Iterate` reads the clock up to twice.

`step` is `none` where a number is converted to an `int` that does not hold it, which is
undefined behaviour. The arc tangent of the C library is a parameter.

* `WaypointManager.step` — the handlers and `Iterate`.
* `lastField`            — what was last published for a field of `ControlMode`.
* `iterate_cases`        — what one `Iterate` does to the shared mode message.
* `step_cases`           — the same for every step.
-/

namespace Sailbot.Control

open Lib

/-- `StationStates`. -/
inductive StationState
  | gotoStart
  | wait
  | back
  | forth
  | leave
  deriving DecidableEq, Repr

/-- `VisionStates`. -/
inductive VisionState
  | followWaypoints
  | followVision
  deriving DecidableEq, Repr

inductive ObstacleState
  | waypoint
  | avoid
  deriving DecidableEq, Repr

/-- A message on one of the queues, or an `Iterate` with the two times that it reads from
the clock, in nanoseconds. -/
inductive ManagerMsg
  | sbus (channel : List Int)
  | tackerState (state : TackerState)
  | challengeControl (challenge : Option ChallengeType)
  /-- `true_wind`, the two components that are used. -/
  | trueWind (x y : Fp)
  | visionData (data : VisionData)
  /-- `boat_state`, the yaw. -/
  | boatState (yaw : Fp)
  | iterate (now later : Int)

/-- A message that the manager publishes. -/
inductive ManagerOut
  | controlMode (msg : ControlMode)
  | headingCmd (msg : HeadingCmd)
  | searchState (state : SearchState)
  deriving DecidableEq

structure WaypointManager where
  tackerDone     : Bool := false
  lastWaypoint   : Int := 0
  lastSbusManual : Bool := false
  nearWaypoint   : Bool := false
  upwindDir      : Fp := .num 0
  visionConfidence : Int := 0
  obsCnt         : Int := 0
  visionAbsHeading : Fp := .num 0
  boatYaw        : Fp := .num 0
  initialAvoidDiffHeading : Fp := .num 0
  stationKeepState : StationState := .gotoStart
  visionState    : VisionState := .followWaypoints
  obstacleState  : ObstacleState := .waypoint
  stationKeepEnd : Int
  mode           : ChallengeType := .waypoint
  controlModeMsg : ControlMode := {}
  searchStateMsg : SearchState := .noTarget
  headingCmdMsg  : HeadingCmd := {}
  out            : List ManagerOut := []
  deriving DecidableEq

def kVisionConfidenceThreshold : Int := 250

def kVisionFoundThreshold : Int := 700

def kVisionObstacleThreshold : Int := 200

/-- `std::chrono::seconds`. -/
def seconds (n : Int) : Int := n * 10 ^ 9

/-- The value of an `int` after an operation that wraps. -/
def wrapInt (n : Int) : Int := (n + 2 ^ 31) % 2 ^ 32 - 2 ^ 31

/-- `util::norm_angle`. -/
def normAngle (F : Formats) (a : Fp) : Option Fp :=
  let tau := Fp.mul F.double (.num 2) (.num mPi)
  if Fp.lt (.num mPi) a then
    (Fp.toInt (.add F.double (.div F.double a tau) (.num (1 / 2)))).map fun n =>
      .sub F.double a (.mul F.double (.num n) tau)
  else if Fp.lt a (.num (-mPi)) then
    (Fp.toInt (.sub F.double (.div F.double a tau) (.num (1 / 2)))).map fun n =>
      .sub F.double a (.mul F.double (.num n) tau)
  else some a

namespace WaypointManager

/-- The node after its constructor, at the time `now`. -/
def init (now : Int) : WaypointManager where
  stationKeepEnd := now
  out := [.searchState .noTarget]

def sendControlMode (s : WaypointManager) (msg : ControlMode) : WaypointManager :=
  { s with controlModeMsg := msg, out := s.out ++ [.controlMode msg] }

def sendHeadingCmd (s : WaypointManager) (msg : HeadingCmd) : WaypointManager :=
  { s with headingCmdMsg := msg, out := s.out ++ [.headingCmd msg] }

def sendSearchState (s : WaypointManager) (state : SearchState) : WaypointManager :=
  { s with searchStateMsg := state, out := s.out ++ [.searchState state] }

-- ---------------------------------------------------------------------------
-- Handlers
-- ---------------------------------------------------------------------------

/-- Both actuators in one mode, and nothing else. -/
def actuatorModes (m : Mode) : ControlMode := { rudderMode := some m, winchMode := some m }

/-- The message is cleared for every SBUS message with a third channel, and sent only
when the switch has moved. -/
def onSbus (s : WaypointManager) (channel : List Int) : WaypointManager :=
  match channel[2]? with
  | none => s
  | some c =>
    let s := { s with controlModeMsg := {} }
    let curSbusManual := decide (c < 1000)
    if (c < 800 ∨ c > 1200) ∧ curSbusManual ≠ s.lastSbusManual then
      { s.sendControlMode (actuatorModes (if curSbusManual then .filteredRc else .auto)) with
        lastSbusManual := curSbusManual }
    else s

def onTackerState (s : WaypointManager) (state : TackerState) : WaypointManager :=
  { s with
    tackerDone := state.done.getD false
    lastWaypoint := state.lastWaypoint.getD 0
    nearWaypoint := state.nearWaypoint.getD false }

/-- The fields of the mode message that every challenge sets. -/
def handOver (msg : ControlMode) : ControlMode :=
  { msg with rudderMode := some .auto, winchMode := some .auto, tacker := some .linePlan }

/-- The branch of `WAYPOINT` sets the mode message and does not send it. -/
def onChallengeControl (s : WaypointManager) (challenge : Option ChallengeType) :
    WaypointManager :=
  let s := s.sendHeadingCmd { s.headingCmdMsg with extraSail := some (.num 0) }
  match challenge with
  | none => s
  | some .stationKeep =>
    { s with mode := .stationKeep, stationKeepState := .gotoStart }.sendControlMode
      (handOver s.controlModeMsg)
  | some .waypoint => { s with mode := .waypoint, controlModeMsg := handOver s.controlModeMsg }
  | some .vision =>
    { s with mode := .vision, visionState := .followWaypoints }.sendControlMode
      (handOver s.controlModeMsg)
  | some .obstacle =>
    { s with mode := .obstacle, obstacleState := .waypoint }.sendControlMode
      (handOver s.controlModeMsg)

def onTrueWind (atan2 : Fp → Fp → Fp) (s : WaypointManager) (x y : Fp) : WaypointManager :=
  { s with upwindDir := atan2 (.neg y) (.neg x) }

def onVisionData (F : Formats) (s : WaypointManager) (data : VisionData) :
    Option WaypointManager :=
  match data.heading, data.confidence with
  | some heading, some confidence => do
    let absHeading ← normAngle F (.add F.float heading s.boatYaw)
    let confidence ← Fp.toInt confidence
    some { s with visionAbsHeading := .conv F.float absHeading, visionConfidence := confidence }
  | _, _ => some s

-- ---------------------------------------------------------------------------
-- Iterate
-- ---------------------------------------------------------------------------

section Iterate

variable (F : Formats)

/-- The heading into the wind, turned by `off`. -/
def upwindHeading (s : WaypointManager) (off : Fp) : Fp :=
  .conv F.float (.add F.double s.upwindDir off)

def doStationKeep (now later : Int) (s : WaypointManager) : Option WaypointManager :=
  match s.stationKeepState with
  | .gotoStart =>
    if s.tackerDone then
      let s := { s with stationKeepEnd := now + seconds 280, stationKeepState := .wait }
      some (s.sendControlMode { tacker := some .disabled })
    else some s
  | .wait =>
    let s := s.sendHeadingCmd
      { heading := some (s.upwindHeading F (.num 0)), extraSail := some (.num (3 / 2)) }
    let s := { s with headingCmdMsg := {} }
    if now > s.stationKeepEnd then
      let s := { s with stationKeepState := .leave, stationKeepEnd := later + seconds 20 }
      some (s.sendControlMode { s.controlModeMsg with tacker := some .disabled })
    else some s
  | .back => do
    let heading ← normAngle F (.sub F.double s.upwindDir (.mul F.double (.num mPi) (.num (1 / 2))))
    let s := s.sendHeadingCmd
      { heading := some (.conv F.float heading), extraSail := some (.num 0) }
    if now > s.stationKeepEnd then
      some { s with stationKeepState := .leave, stationKeepEnd := later + seconds 90 }
    else some s
  | .forth =>
    let s := s.sendHeadingCmd
      { heading := some (s.upwindHeading F (.div F.double (.num mPi) (.num 8)))
        extraSail := some (.num (3 / 2)) }
    let s := { s with headingCmdMsg := {} }
    if now > s.stationKeepEnd then some { s with stationKeepState := .leave } else some s
  | .leave => do
    let heading ← normAngle F (.add F.double s.upwindDir (.mul F.double (.num mPi) (.num (3 / 4))))
    some (s.sendHeadingCmd { heading := some (.conv F.float heading), extraSail := some (.num 0) })

/-- When the target is lost the tacker is switched on again, but the state stays
`FOLLOW_VISION`. -/
def doVisionSearch (s : WaypointManager) : WaypointManager :=
  match s.visionState with
  | .followWaypoints =>
    if (s.tackerDone ∨ s.lastWaypoint ≥ 1) ∧ s.visionConfidence > kVisionConfidenceThreshold then
      ({ s with visionState := .followVision }.sendControlMode
        { tacker := some .disabled }).sendSearchState .goingToBuoy
    else s.sendSearchState .noTarget
  | .followVision =>
    let s := s.sendHeadingCmd { s.headingCmdMsg with heading := some s.visionAbsHeading }
    if s.visionConfidence > kVisionFoundThreshold then
      let s := s.sendHeadingCmd
        { heading := some (s.upwindHeading F (.num 0)), extraSail := some (.num (3 / 2)) }
      ({ s with headingCmdMsg := {} }.sendControlMode
        { s.controlModeMsg with tacker := some .disabled }).sendSearchState .atBuoy
    else if s.visionConfidence < kVisionConfidenceThreshold then
      (s.sendControlMode { tacker := some .linePlan }).sendSearchState s.searchStateMsg
    else s.sendSearchState s.searchStateMsg

def doObstacleAvoid (s : WaypointManager) : Option WaypointManager :=
  match s.obstacleState with
  | .waypoint =>
    if !s.nearWaypoint ∧ s.visionConfidence > kVisionObstacleThreshold then
      let s := { s with obsCnt := 0 }.sendControlMode { tacker := some .disabled }
      (normAngle F (.sub F.float s.visionAbsHeading s.boatYaw)).map fun diff =>
        let side := if Fp.lt (.num 0) diff then 1 else -1
        { s with
          initialAvoidDiffHeading := .conv F.float (.mul F.double
            (.div F.double (.num mPi) (.num 2)) (.num side))
          obstacleState := .avoid }
    else some s
  | .avoid => do
    let s := { s with obsCnt := wrapInt (s.obsCnt + 1) }
    let heading ← normAngle F (.add F.float s.initialAvoidDiffHeading s.boatYaw)
    let s := s.sendHeadingCmd { s.headingCmdMsg with heading := some (.conv F.float heading) }
    if s.obsCnt > 50 ∧ s.visionConfidence < kVisionObstacleThreshold then
      some { s.sendControlMode { tacker := some .linePlan } with obstacleState := .waypoint }
    else some s

def iterate (now later : Int) (s : WaypointManager) : Option WaypointManager :=
  match s.mode with
  | .stationKeep => s.doStationKeep F now later
  | .waypoint => some s
  | .vision => some (s.doVisionSearch F)
  | .obstacle => s.doObstacleAvoid F

end Iterate

def step (F : Formats) (atan2 : Fp → Fp → Fp) (s : WaypointManager) :
    ManagerMsg → Option WaypointManager
  | .sbus channel => some (s.onSbus channel)
  | .tackerState state => some (s.onTackerState state)
  | .challengeControl challenge => some (s.onChallengeControl challenge)
  | .trueWind x y => some (s.onTrueWind atan2 x y)
  | .visionData data => s.onVisionData F data
  | .boatState yaw => some { s with boatYaw := yaw }
  | .iterate now later => s.iterate F now later

-- ---------------------------------------------------------------------------
-- What was published
-- ---------------------------------------------------------------------------

/-- The mode message of a publication. -/
def controlMode? : ManagerOut → Option ControlMode
  | .controlMode msg => some msg
  | _ => none

/-- The last mode message that was published. -/
def lastControlMode (out : List ManagerOut) : Option ControlMode :=
  (out.filterMap controlMode?).getLast?

/-- What was last published for a field of the mode message; messages in which it is not
set do not count. -/
def lastField {β : Type} (field : ControlMode → Option β) (out : List ManagerOut) : Option β :=
  (out.filterMap fun o => (controlMode? o).bind field).getLast?

section LastField

variable {β : Type} {field : ControlMode → Option β} {out : List ManagerOut}

@[simp] theorem lastField_controlMode (msg : ControlMode) :
    lastField field (out ++ [.controlMode msg]) = (field msg).or (lastField field out) := by
  cases h : field msg <;> simp [lastField, controlMode?, h]

/-- Messages of the other kinds do not change what was last published. -/
theorem lastField_append {sent : List ManagerOut} (h : ∀ o ∈ sent, controlMode? o = none) :
    lastField field (out ++ sent) = lastField field out := by
  have hNone : (sent.filterMap fun o => (controlMode? o).bind field) = [] := by
    rw [List.filterMap_eq_nil_iff]
    intro o ho
    rw [h o ho]
    rfl
  rw [lastField, List.filterMap_append, hNone, List.append_nil]
  rfl

@[simp] theorem lastField_headingCmd (msg : HeadingCmd) :
    lastField field (out ++ [.headingCmd msg]) = lastField field out :=
  lastField_append (by simp [controlMode?])

end LastField

-- ---------------------------------------------------------------------------
-- What one Iterate does
-- ---------------------------------------------------------------------------

/-- The state machine of the selected challenge is in a state that publishes headings. -/
def Steering (s : WaypointManager) : Prop :=
  match s.mode with
  | .stationKeep => s.stationKeepState ≠ .gotoStart
  | .waypoint => False
  | .vision => s.visionState = .followVision
  | .obstacle => s.obstacleState = .avoid

/-- The next `Iterate` takes one of the two branches that send the mode message without
clearing it. -/
def Uncleared (now : Int) (s : WaypointManager) : Prop :=
  (s.mode = .stationKeep ∧ s.stationKeepState = .wait ∧ now > s.stationKeepEnd) ∨
    (s.mode = .vision ∧ s.visionState = .followVision ∧
      s.visionConfidence > kVisionFoundThreshold)

/-- The next `Iterate` finds that the target it steers for is lost. -/
def TargetLost (s : WaypointManager) : Prop :=
  s.mode = .vision ∧ s.visionState = .followVision ∧
    s.visionConfidence < kVisionConfidenceThreshold

/-- The mode message that an `Iterate` sends, if it sends one, and what it means for the
state machine. -/
inductive Transition (now : Int) (s s' : WaypointManager) : Option ControlMode → Prop
  | stay (cleared : ¬ Uncleared now s) (keeps : s'.Steering ↔ s.Steering) : Transition now s s' none
  | takeOver (cleared : ¬ Uncleared now s) (steers : s'.Steering) :
      Transition now s s' (some { tacker := some .disabled })
  | again (uncleared : Uncleared now s) :
      Transition now s s' (some { s.controlModeMsg with tacker := some .disabled })
  | giveBack (cleared : ¬ Uncleared now s) (released : s'.Steering → s.TargetLost) :
      Transition now s s' (some { tacker := some .linePlan })

/-- What an `Iterate` publishes: headings if the state machine is steering, then at most
one mode message, then the state of the search. -/
structure Iterated (now : Int) (s s' : WaypointManager) (headings : List HeadingCmd)
    (msg : Option ControlMode) (searches : List SearchState) : Prop where
  transition : Transition now s s' msg
  out : s'.out = s.out ++ (headings.map .headingCmd ++ msg.toList.map .controlMode ++
    searches.map .searchState)
  steering : headings ≠ [] → s.Steering
  msg : s'.controlModeMsg = msg.getD s.controlModeMsg
  mode : s'.mode = s.mode
  lastSbusManual : s'.lastSbusManual = s.lastSbusManual

section Cases

variable {F : Formats} {now later : Int} {s s' : WaypointManager}

/-- An `Iterate` that publishes one heading and no mode message. -/
theorem Iterated.heading {heading : HeadingCmd} (hCleared : ¬ Uncleared now s)
    (hSteering : s.Steering) (hKeeps : s'.Steering)
    (hOut : s'.out = s.out ++ [.headingCmd heading]) (hMsg : s'.controlModeMsg = s.controlModeMsg)
    (hMode : s'.mode = s.mode) (hSbus : s'.lastSbusManual = s.lastSbusManual) :
    Iterated now s s' [heading] none [] :=
  ⟨.stay hCleared (iff_of_true hKeeps hSteering), by simpa using hOut, fun _ => hSteering, hMsg,
    hMode, hSbus⟩

/-- What station keeping does in an `Iterate`. -/
theorem doStationKeep_iterated (hMode : s.mode = .stationKeep)
    (h : s.doStationKeep F now later = some s') :
    ∃ headings msg, Iterated now s s' headings msg [] := by
  have hUncleared : Uncleared now s ↔ s.stationKeepState = .wait ∧ now > s.stationKeepEnd := by
    simp [Uncleared, hMode]
  have hCleared : s.stationKeepState ≠ .wait → ¬ Uncleared now s := fun hWait hLate =>
    hWait (hUncleared.mp hLate).1
  have hSteering : s.stationKeepState ≠ .gotoStart → s.Steering := by simp [Steering, hMode]
  unfold doStationKeep at h
  cases hState : s.stationKeepState with
  | gotoStart =>
    rw [hState] at h hCleared
    dsimp only at h
    split at h
    · cases h
      refine ⟨[], _, .takeOver (hCleared (by decide)) ?_, rfl, absurd rfl, rfl, rfl, rfl⟩
      simp [Steering, sendControlMode, hMode]
    · cases h
      exact ⟨[], none, .stay (hCleared (by decide)) Iff.rfl, by simp, absurd rfl, rfl, rfl, rfl⟩
  | wait =>
    rw [hState] at h hUncleared hSteering
    dsimp only at h
    split at h
    · next hEnd =>
      -- the time is over: the mode message goes out again as it was left, with a heading
      cases h
      exact ⟨[⟨some (s.upwindHeading F (.num 0)), some (.num (3 / 2))⟩], _,
        .again (hUncleared.mpr ⟨rfl, hEnd⟩), by simp [sendControlMode, sendHeadingCmd],
        fun _ => hSteering (by decide), rfl, rfl, rfl⟩
    · next hEnd =>
      cases h
      refine ⟨_, _, .heading (fun hLate => hEnd (hUncleared.mp hLate).2) (hSteering (by decide))
        ?_ rfl rfl rfl rfl⟩
      simp [Steering, sendHeadingCmd, hMode, hState]
  | back =>
    rw [hState] at h hCleared hSteering
    simp only [Option.bind_eq_bind, Option.bind_eq_some_iff] at h
    obtain ⟨heading, _, h⟩ := h
    split at h
    · cases h
      refine ⟨_, _, .heading (hCleared (by decide)) (hSteering (by decide)) ?_ rfl rfl rfl rfl⟩
      simp [Steering, sendHeadingCmd, hMode]
    · cases h
      refine ⟨_, _, .heading (hCleared (by decide)) (hSteering (by decide)) ?_ rfl rfl rfl rfl⟩
      simp [Steering, sendHeadingCmd, hMode, hState]
  | forth =>
    rw [hState] at h hCleared hSteering
    dsimp only at h
    split at h
    · cases h
      refine ⟨_, _, .heading (hCleared (by decide)) (hSteering (by decide)) ?_ rfl rfl rfl rfl⟩
      simp [Steering, sendHeadingCmd, hMode]
    · cases h
      refine ⟨_, _, .heading (hCleared (by decide)) (hSteering (by decide)) ?_ rfl rfl rfl rfl⟩
      simp [Steering, sendHeadingCmd, hMode, hState]
  | leave =>
    rw [hState] at h hCleared hSteering
    simp only [Option.bind_eq_bind, Option.bind_eq_some_iff, Option.some.injEq] at h
    obtain ⟨heading, _, rfl⟩ := h
    refine ⟨_, _, .heading (hCleared (by decide)) (hSteering (by decide)) ?_ rfl rfl rfl rfl⟩
    simp [Steering, sendHeadingCmd, hMode, hState]

/-- What the search does in an `Iterate`. -/
theorem doVisionSearch_iterated (hMode : s.mode = .vision) :
    ∃ headings msg searches, Iterated now s (s.doVisionSearch F) headings msg searches := by
  have hUncleared : Uncleared now s ↔
      s.visionState = .followVision ∧ s.visionConfidence > kVisionFoundThreshold := by
    simp [Uncleared, hMode]
  have hSteering : s.Steering ↔ s.visionState = .followVision := by simp [Steering, hMode]
  unfold doVisionSearch
  cases hState : s.visionState with
  | followWaypoints =>
    rw [hState] at hUncleared hSteering
    have hCleared : ¬ Uncleared now s := by simp [hUncleared]
    dsimp only
    split
    · refine ⟨[], _, [.goingToBuoy], .takeOver hCleared ?_, ?_, absurd rfl, rfl, rfl, rfl⟩
      · simp [Steering, sendControlMode, sendSearchState, hMode]
      · simp [sendControlMode, sendSearchState]
    · refine ⟨[], none, [.noTarget], .stay hCleared ?_, ?_, absurd rfl, rfl, rfl, rfl⟩
      · simp [Steering, sendSearchState, hMode, hState]
      · simp [sendSearchState]
  | followVision =>
    rw [hState] at hUncleared hSteering
    have hSteering : s.Steering := by simp [hSteering]
    dsimp only
    split
    · next hFound =>
      refine ⟨[{ s.headingCmdMsg with heading := some s.visionAbsHeading },
          ⟨some (s.upwindHeading F (.num 0)), some (.num (3 / 2))⟩],
        some { s.controlModeMsg with tacker := some .disabled }, [.atBuoy],
        .again (hUncleared.mpr ⟨rfl, hFound⟩), ?_, fun _ => hSteering, ?_, ?_, ?_⟩
      · simp [sendControlMode, sendHeadingCmd, sendSearchState, upwindHeading]
      · simp [sendControlMode, sendHeadingCmd, sendSearchState]
      · simp [sendControlMode, sendHeadingCmd, sendSearchState]
      · simp [sendControlMode, sendHeadingCmd, sendSearchState]
    · next hFound =>
      have hCleared : ¬ Uncleared now s := fun hLate => hFound (hUncleared.mp hLate).2
      split
      · next hLost =>
        exact ⟨[{ s.headingCmdMsg with heading := some s.visionAbsHeading }], _,
          [s.searchStateMsg], .giveBack hCleared fun _ => ⟨hMode, hState, hLost⟩,
          by simp [sendControlMode, sendHeadingCmd, sendSearchState],
          fun _ => hSteering, rfl, rfl, rfl⟩
      · refine ⟨[{ s.headingCmdMsg with heading := some s.visionAbsHeading }], none,
          [s.searchStateMsg], .stay hCleared (iff_of_true ?_ hSteering),
          by simp [sendHeadingCmd, sendSearchState],
          fun _ => hSteering, rfl, rfl, rfl⟩
        simp [Steering, sendHeadingCmd, sendSearchState, hMode, hState]

/-- What avoiding does in an `Iterate`. -/
theorem doObstacleAvoid_iterated (hMode : s.mode = .obstacle)
    (h : s.doObstacleAvoid F = some s') :
    ∃ headings msg, Iterated now s s' headings msg [] := by
  have hCleared : ¬ Uncleared now s := by simp [Uncleared, hMode]
  have hSteering : s.Steering ↔ s.obstacleState = .avoid := by simp [Steering, hMode]
  unfold doObstacleAvoid at h
  cases hState : s.obstacleState with
  | waypoint =>
    rw [hState] at h
    dsimp only at h
    split at h
    · obtain ⟨diff, _, rfl⟩ := Option.map_eq_some_iff.mp h
      refine ⟨[], _, .takeOver hCleared ?_, rfl, absurd rfl, rfl, rfl, rfl⟩
      simp [Steering, sendControlMode, hMode]
    · cases h
      exact ⟨[], none, .stay hCleared Iff.rfl, by simp, absurd rfl, rfl, rfl, rfl⟩
  | avoid =>
    rw [hState] at h hSteering
    have hSteering : s.Steering := by simp [hSteering]
    simp only [Option.bind_eq_bind, Option.bind_eq_some_iff] at h
    obtain ⟨heading, _, h⟩ := h
    split at h
    · cases h
      refine ⟨[{ s.headingCmdMsg with heading := some (.conv F.float heading) }], _,
        .giveBack hCleared fun hAvoid => ?_, by simp [sendControlMode, sendHeadingCmd],
        fun _ => hSteering, rfl, rfl, rfl⟩
      simp [Steering, sendControlMode, sendHeadingCmd, hMode] at hAvoid
    · cases h
      refine ⟨_, _, .heading hCleared hSteering ?_ rfl rfl rfl rfl⟩
      simp [Steering, sendHeadingCmd, hMode]

/-- What an `Iterate` does, in whichever challenge. -/
theorem iterate_cases (h : s.iterate F now later = some s') :
    ∃ headings msg searches, Iterated now s s' headings msg searches := by
  unfold iterate at h
  split at h
  · next hMode =>
    obtain ⟨headings, msg, hIter⟩ := doStationKeep_iterated hMode h
    exact ⟨headings, msg, [], hIter⟩
  · next hMode =>
    cases h
    exact ⟨[], none, [], .stay (by simp [Uncleared, hMode]) Iff.rfl, by simp, absurd rfl, rfl,
      rfl, rfl⟩
  · next hMode =>
    cases h
    exact doVisionSearch_iterated hMode
  · next hMode =>
    obtain ⟨headings, msg, hIter⟩ := doObstacleAvoid_iterated hMode h
    exact ⟨headings, msg, [], hIter⟩

/-- What the handlers keep that neither publish nor touch a state machine. -/
structure Quiet (s s' : WaypointManager) : Prop where
  out : s'.out = s.out
  msg : s'.controlModeMsg = s.controlModeMsg
  steering : s'.Steering ↔ s.Steering
  mode : s'.mode = s.mode
  lastSbusManual : s'.lastSbusManual = s.lastSbusManual

/-- The camera's data publish nothing and change no mode. -/
theorem onVisionData_quiet {data : VisionData} (h : s.onVisionData F data = some s') :
    Quiet s s' := by
  unfold onVisionData at h
  split at h
  · simp only [Option.bind_eq_bind, Option.bind_eq_some_iff, Option.some.injEq] at h
    obtain ⟨heading, _, confidence, _, rfl⟩ := h
    exact ⟨rfl, rfl, Iff.rfl, rfl, rfl⟩
  · cases h
    exact ⟨rfl, rfl, Iff.rfl, rfl, rfl⟩

/-- A step is quiet, or one of the three that publish. -/
theorem step_cases {atan2 : Fp → Fp → Fp} {a : ManagerMsg} (h : step F atan2 s a = some s') :
    Quiet s s' ∨ (∃ channel, a = .sbus channel ∧ s' = s.onSbus channel) ∨
      (∃ challenge, a = .challengeControl challenge ∧ s' = s.onChallengeControl challenge) ∨
      (∃ now later, a = .iterate now later ∧ s.iterate F now later = some s') := by
  cases a with
  | sbus channel => exact .inr (.inl ⟨channel, rfl, (Option.some.inj h).symm⟩)
  | challengeControl challenge =>
    exact .inr (.inr (.inl ⟨challenge, rfl, (Option.some.inj h).symm⟩))
  | iterate now later => exact .inr (.inr (.inr ⟨now, later, rfl, h⟩))
  | visionData data => exact .inl (onVisionData_quiet h)
  | tackerState state | trueWind x y | boatState yaw =>
    cases h
    exact .inl ⟨rfl, rfl, Iff.rfl, rfl, rfl⟩

/-- The `sbus_value` handler: no third channel, a switch that has not moved, or one that
has, down or up. -/
theorem onSbus_cases (s : WaypointManager) (channel : List Int) :
    (channel[2]? = none ∧ s.onSbus channel = s) ∨
    (∃ c, channel[2]? = some c ∧
      (c < 800 → s.lastSbusManual = true) ∧ (1200 < c → s.lastSbusManual = false) ∧
      s.onSbus channel = { s with controlModeMsg := {} }) ∨
    (∃ c, channel[2]? = some c ∧ c < 800 ∧ s.lastSbusManual = false ∧
      s.onSbus channel =
        { s.sendControlMode (actuatorModes .filteredRc) with lastSbusManual := true }) ∨
    (∃ c, channel[2]? = some c ∧ 1200 < c ∧ s.lastSbusManual = true ∧
      s.onSbus channel =
        { s.sendControlMode (actuatorModes .auto) with lastSbusManual := false }) := by
  unfold onSbus
  cases hc : channel[2]? with
  | none => exact .inl ⟨rfl, rfl⟩
  | some c =>
    dsimp only
    by_cases hDown : c < 800
    · have hManual : decide (c < 1000) = true := decide_eq_true (by omega)
      rw [hManual]
      cases hLast : s.lastSbusManual with
      | true =>
        refine .inr (.inl ⟨c, rfl, fun _ => rfl, fun hUp => absurd hUp (by omega), ?_⟩)
        rw [if_neg (by simp)]
      | false =>
        refine .inr (.inr (.inl ⟨c, rfl, hDown, rfl, ?_⟩))
        rw [if_pos ⟨.inl hDown, by simp⟩]
        rfl
    · by_cases hUp : 1200 < c
      · have hManual : decide (c < 1000) = false := decide_eq_false (by omega)
        rw [hManual]
        cases hLast : s.lastSbusManual with
        | true =>
          refine .inr (.inr (.inr ⟨c, rfl, hUp, rfl, ?_⟩))
          rw [if_pos ⟨.inr hUp, by simp⟩]
          rfl
        | false =>
          refine .inr (.inl ⟨c, rfl, fun h => absurd h hDown, fun _ => rfl, ?_⟩)
          rw [if_neg (by simp)]
      · refine .inr (.inl ⟨c, rfl, fun h => absurd h hDown, fun h => absurd h hUp, ?_⟩)
        rw [if_neg]
        rintro ⟨hDown' | hUp', _⟩
        · exact hDown hDown'
        · exact hUp hUp'

end Cases

end WaypointManager

end Sailbot.Control
