import Mathlib.Data.List.Induction
import Sailbot.Control.WaypointManager

/-!
# The challenges over whole runs

How long the state machines of `control/waypoint_manager.cc` stay in their states. Every handler and
every `Iterate` of the manager is one step.

* `WaypointManager.station_keeping` — after the waypoints are done the boat holds its station for
  280 seconds by the clock, and then leaves it for good.
* `WaypointManager.avoids_for_long` — an obstacle is avoided for more than fifty `Iterate`s.
* `WaypointManager.searching`       — what is told of a search never goes back.
-/

namespace Sailbot.Control.WaypointManager

open Lib

variable {F : Formats} {atan2 : Fp → Fp → Fp} {start now later : Int} {s s' : WaypointManager}
  {as : List ManagerMsg} {a : ManagerMsg}

-- ---------------------------------------------------------------------------
-- What one step does to the state machines
-- ---------------------------------------------------------------------------

/-- The members of the state machines. -/
structure SameMachines (s s' : WaypointManager) : Prop where
  mode : s'.mode = s.mode
  station : s'.stationKeepState = s.stationKeepState
  stationEnd : s'.stationKeepEnd = s.stationKeepEnd
  obstacle : s'.obstacleState = s.obstacleState
  cnt : s'.obsCnt = s.obsCnt
  diff : s'.initialAvoidDiffHeading = s.initialAvoidDiffHeading

/-- A message that starts a challenge. -/
def Starts (a : ManagerMsg) : Prop := ∃ challenge, a = .challengeControl (some challenge)

def IsIterate (a : ManagerMsg) : Prop := ∃ now later, a = .iterate now later

/-- The state machines move in an `Iterate` and when a challenge is started only. -/
theorem step_sameMachines (h : step F atan2 s a = some s') (hStarts : ¬ Starts a)
    (hIterate : ¬ IsIterate a) : SameMachines s s' := by
  cases a with
  | sbus channel =>
    obtain rfl := Option.some.inj h
    rcases onSbus_cases s channel with ⟨_, hEq⟩ | ⟨_, _, _, _, hEq⟩ | ⟨_, _, _, _, hEq⟩ |
      ⟨_, _, _, _, hEq⟩
    all_goals
      rw [hEq]
      exact ⟨rfl, rfl, rfl, rfl, rfl, rfl⟩
  | challengeControl challenge =>
    cases challenge with
    | none =>
      obtain rfl := Option.some.inj h
      exact ⟨rfl, rfl, rfl, rfl, rfl, rfl⟩
    | some challenge => exact absurd ⟨challenge, rfl⟩ hStarts
  | visionData data =>
    rw [step, onVisionData] at h
    split at h
    · simp only [Option.bind_eq_bind, Option.bind_eq_some_iff, Option.some.injEq] at h
      obtain ⟨heading, _, confidence, _, rfl⟩ := h
      exact ⟨rfl, rfl, rfl, rfl, rfl, rfl⟩
    · obtain rfl := Option.some.inj h
      exact ⟨rfl, rfl, rfl, rfl, rfl, rfl⟩
  | tackerState _ | trueWind _ _ | boatState _ =>
    obtain rfl := Option.some.inj h
    exact ⟨rfl, rfl, rfl, rfl, rfl, rfl⟩
  | iterate now later => exact absurd ⟨now, later, rfl⟩ hIterate

/-- What an `Iterate` does to the machine for station keeping. -/
inductive StationMove (now later : Int) (s s' : WaypointManager) : Prop
  | stay (state : s'.stationKeepState = s.stationKeepState)
      (stays : s'.stationKeepEnd = s.stationKeepEnd)
      (soon : s.mode = .stationKeep → s.stationKeepState = .wait → now ≤ s.stationKeepEnd)
  | arrive (mode : s.mode = .stationKeep) (before : s.stationKeepState = .gotoStart)
      (done : s.tackerDone = true) (after : s'.stationKeepState = .wait)
      (till : s'.stationKeepEnd = now + seconds 280)
  | leave (mode : s.mode = .stationKeep) (before : s.stationKeepState ≠ .gotoStart)
      (late : s.stationKeepState = .wait → s.stationKeepEnd < now)
      (after : s'.stationKeepState = .leave)

/-- The search leaves the other machines alone. -/
theorem doVisionSearch_same (s : WaypointManager) :
    (s.doVisionSearch F).mode = s.mode ∧
    (s.doVisionSearch F).stationKeepState = s.stationKeepState ∧
    (s.doVisionSearch F).stationKeepEnd = s.stationKeepEnd ∧
    (s.doVisionSearch F).obstacleState = s.obstacleState ∧
    (s.doVisionSearch F).obsCnt = s.obsCnt := by
  unfold doVisionSearch
  cases s.visionState with
  | followWaypoints =>
    dsimp only
    split <;> exact ⟨rfl, rfl, rfl, rfl, rfl⟩
  | followVision =>
    dsimp only
    split
    · exact ⟨rfl, rfl, rfl, rfl, rfl⟩
    · split <;> exact ⟨rfl, rfl, rfl, rfl, rfl⟩

/-- To avoid obstacles leaves station keeping alone. -/
theorem doObstacleAvoid_same (h : s.doObstacleAvoid F = some s') :
    s'.mode = s.mode ∧ s'.stationKeepState = s.stationKeepState ∧
      s'.stationKeepEnd = s.stationKeepEnd := by
  unfold doObstacleAvoid at h
  cases hState : s.obstacleState with
  | waypoint =>
    rw [hState] at h
    dsimp only at h
    split at h
    · obtain ⟨diff, _, rfl⟩ := Option.map_eq_some_iff.mp h
      exact ⟨rfl, rfl, rfl⟩
    · obtain rfl := Option.some.inj h
      exact ⟨rfl, rfl, rfl⟩
  | avoid =>
    rw [hState] at h
    simp only [Option.bind_eq_bind, Option.bind_eq_some_iff] at h
    obtain ⟨heading, _, h⟩ := h
    split at h
    · obtain rfl := Option.some.inj h
      exact ⟨rfl, rfl, rfl⟩
    · obtain rfl := Option.some.inj h
      exact ⟨rfl, rfl, rfl⟩

/-- In its mode, an `Iterate` moves the machine of station keeping. -/
theorem doStationKeep_move (hMode : s.mode = .stationKeep)
    (h : s.doStationKeep F now later = some s') :
    s'.mode = s.mode ∧ StationMove now later s s' := by
  unfold doStationKeep at h
  cases hState : s.stationKeepState with
  | gotoStart =>
    rw [hState] at h
    dsimp only at h
    split at h
    · next hDone =>
      obtain rfl := Option.some.inj h
      exact ⟨rfl, .arrive hMode hState hDone rfl rfl⟩
    · obtain rfl := Option.some.inj h
      exact ⟨rfl, .stay rfl rfl fun _ hWait => absurd (hState.symm.trans hWait) (by decide)⟩
  | wait =>
    rw [hState] at h
    dsimp only at h
    split at h
    · next hEnd =>
      obtain rfl := Option.some.inj h
      exact ⟨rfl, .leave hMode (by rw [hState]; decide) (fun _ => hEnd) rfl⟩
    · next hEnd =>
      obtain rfl := Option.some.inj h
      exact ⟨rfl, .stay rfl rfl fun _ _ => not_lt.mp hEnd⟩
  | back =>
    rw [hState] at h
    simp only [Option.bind_eq_bind, Option.bind_eq_some_iff] at h
    obtain ⟨heading, _, h⟩ := h
    have hNot : s.stationKeepState = .wait → False := fun hWait =>
      absurd (hState.symm.trans hWait) (by decide)
    split at h
    · obtain rfl := Option.some.inj h
      exact ⟨rfl, .leave hMode (by rw [hState]; decide) (fun hWait => (hNot hWait).elim) rfl⟩
    · obtain rfl := Option.some.inj h
      exact ⟨rfl, .stay rfl rfl fun _ hWait => (hNot hWait).elim⟩
  | forth =>
    rw [hState] at h
    dsimp only at h
    have hNot : s.stationKeepState = .wait → False := fun hWait =>
      absurd (hState.symm.trans hWait) (by decide)
    split at h
    · obtain rfl := Option.some.inj h
      exact ⟨rfl, .leave hMode (by rw [hState]; decide) (fun hWait => (hNot hWait).elim) rfl⟩
    · obtain rfl := Option.some.inj h
      exact ⟨rfl, .stay rfl rfl fun _ hWait => (hNot hWait).elim⟩
  | leave =>
    rw [hState] at h
    simp only [Option.bind_eq_bind, Option.bind_eq_some_iff, Option.some.injEq] at h
    obtain ⟨heading, _, rfl⟩ := h
    exact ⟨rfl, .stay rfl rfl fun _ hWait => absurd (hState.symm.trans hWait) (by decide)⟩

/-- In every mode, an `Iterate` moves it, or leaves it alone. -/
theorem iterate_stationMove (h : s.iterate F now later = some s') :
    s'.mode = s.mode ∧ StationMove now later s s' := by
  unfold iterate at h
  split at h
  · next hMode => exact doStationKeep_move hMode h
  · next hMode =>
    obtain rfl := Option.some.inj h
    exact ⟨rfl, .stay rfl rfl fun hStation => absurd (hMode.symm.trans hStation) (by decide)⟩
  · next hMode =>
    obtain rfl := Option.some.inj h
    obtain ⟨hSame, hState, hEnd, -⟩ := doVisionSearch_same (F := F) s
    exact ⟨hSame, .stay hState hEnd fun hStation => absurd (hMode.symm.trans hStation) (by decide)⟩
  · next hMode =>
    obtain ⟨hSame, hState, hEnd⟩ := doObstacleAvoid_same h
    exact ⟨hSame, .stay hState hEnd fun hStation => absurd (hMode.symm.trans hStation) (by decide)⟩

-- ---------------------------------------------------------------------------
-- Station keeping
-- ---------------------------------------------------------------------------

/-- The actions `as` reached the station at the time `t`: the waypoints were done, no challenge was
started since, and no `Iterate` since was later than 280 seconds after `t`. -/
def Holding (F : Formats) (atan2 : Fp → Fp → Fp) (start : Int) (as : List ManagerMsg) (t : Int) :
    Prop :=
  ∃ pre later mid p, as = pre ++ .iterate t later :: mid ∧
    run (step F atan2) (init start) pre = some p ∧
    p.mode = .stationKeep ∧ p.stationKeepState = .gotoStart ∧ p.tackerDone = true ∧
    (∀ a ∈ mid, ¬ Starts a) ∧ ∀ now later, .iterate now later ∈ mid → now ≤ t + seconds 280

/-- The actions `as` held the station, and left it more than 280 seconds after reaching it. -/
def Left (F : Formats) (atan2 : Fp → Fp → Fp) (start : Int) (as : List ManagerMsg) : Prop :=
  ∃ held t now later post, as = held ++ .iterate now later :: post ∧
    Holding F atan2 start held t ∧ t + seconds 280 < now ∧ ∀ a ∈ post, ¬ Starts a

/-- The station is held until its end, whatever else comes in. -/
theorem Holding.concat {t : Int} (h : Holding F atan2 start as t) (hStarts : ¬ Starts a)
    (hSoon : ∀ now later, a = .iterate now later → now ≤ t + seconds 280) :
    Holding F atan2 start (as ++ [a]) t := by
  obtain ⟨pre, later, mid, p, rfl, hrun, hMode, hState, hDone, hNone, hEarly⟩ := h
  refine ⟨pre, later, mid ++ [a], p, by simp, hrun, hMode, hState, hDone, ?_, ?_⟩
  · intro b hb
    rcases List.mem_append.mp hb with hb | hb
    · exact hNone b hb
    · rw [List.mem_singleton.mp hb]
      exact hStarts
  · intro now later hb
    rcases List.mem_append.mp hb with hb | hb
    · exact hEarly now later hb
    · exact hSoon now later (List.mem_singleton.mp hb).symm

/-- Once the box is left, it is left until the next start. -/
theorem Left.concat (h : Left F atan2 start as) (hStarts : ¬ Starts a) :
    Left F atan2 start (as ++ [a]) := by
  obtain ⟨held, t, now, later, post, rfl, hHeld, hLate, hNone⟩ := h
  refine ⟨held, t, now, later, post ++ [a], by simp, hHeld, hLate, ?_⟩
  intro b hb
  rcases List.mem_append.mp hb with hb | hb
  · exact hNone b hb
  · rw [List.mem_singleton.mp hb]
    exact hStarts

/-- Where the boat is in keeping its station, after the actions `as`. -/
structure StationInv (F : Formats) (atan2 : Fp → Fp → Fp) (start : Int) (as : List ManagerMsg)
    (s : WaypointManager) : Prop where
  states : s.stationKeepState = .gotoStart ∨ s.stationKeepState = .wait ∨
    s.stationKeepState = .leave
  wait : s.mode = .stationKeep → s.stationKeepState = .wait →
    ∃ t, s.stationKeepEnd = t + seconds 280 ∧ Holding F atan2 start as t
  leave : s.mode = .stationKeep → s.stationKeepState = .leave → Left F atan2 start as

/-- What leaves the machines alone leaves the account of them. -/
theorem StationInv.same (h : StationInv F atan2 start as s) (hSame : SameMachines s s')
    (hStarts : ¬ Starts a) (hIterate : ¬ IsIterate a) :
    StationInv F atan2 start (as ++ [a]) s' where
  states := by
    rw [hSame.station]
    exact h.states
  wait hMode hState := by
    obtain ⟨t, hEnd, hHolding⟩ := h.wait (hSame.mode ▸ hMode) (hSame.station ▸ hState)
    refine ⟨t, hSame.stationEnd.trans hEnd, hHolding.concat hStarts ?_⟩
    rintro now later rfl
    exact absurd ⟨now, later, rfl⟩ hIterate
  leave hMode hState := (h.leave (hSame.mode ▸ hMode) (hSame.station ▸ hState)).concat hStarts

/-- An `Iterate` holds the station, or leaves it, or goes on towards it. -/
theorem StationInv.iterate (h : StationInv F atan2 start as s)
    (hrun : run (step F atan2) (init start) as = some s)
    (hIter : s.iterate F now later = some s') :
    StationInv F atan2 start (as ++ [.iterate now later]) s' := by
  have hStarts : ¬ Starts (.iterate now later) := by
    rintro ⟨challenge, hEq⟩
    cases hEq
  obtain ⟨hMode, hMove⟩ := iterate_stationMove hIter
  cases hMove with
  | stay state stays soon =>
    refine ⟨by rw [state]; exact h.states, ?_, ?_⟩
    · intro hMode' hWait
      rw [hMode] at hMode'
      rw [state] at hWait
      obtain ⟨t, hEnd, hHolding⟩ := h.wait hMode' hWait
      refine ⟨t, stays.trans hEnd, hHolding.concat hStarts ?_⟩
      intro n l hEq
      cases hEq
      exact hEnd ▸ soon hMode' hWait
    · intro hMode' hLeave
      exact (h.leave (hMode ▸ hMode') (state ▸ hLeave)).concat hStarts
  | arrive mode before done after till =>
    refine ⟨.inr (.inl after), fun _ _ => ⟨now, till, ?_⟩, ?_⟩
    · exact ⟨as, later, [], s, rfl, hrun, mode, before, done, by simp, by simp⟩
    · intro _ hLeave
      exact absurd (after.symm.trans hLeave) (by decide)
  | leave mode before late after =>
    refine ⟨.inr (.inr after), ?_, ?_⟩
    · intro _ hWait
      exact absurd (after.symm.trans hWait) (by decide)
    · intro _ _
      rcases h.states with hGo | hWait | hLeave
      · exact absurd hGo before
      · obtain ⟨t, hEnd, hHolding⟩ := h.wait mode hWait
        exact ⟨as, t, now, later, [], rfl, hHolding, hEnd ▸ late hWait, by simp⟩
      · exact (h.leave mode hLeave).concat hStarts

/-- A challenge that starts is on its way to the box. -/
theorem StationInv.started (h : StationInv F atan2 start as s) (challenge : ChallengeType) :
    StationInv F atan2 start (as ++ [.challengeControl (some challenge)])
      (s.onChallengeControl (some challenge)) := by
  cases challenge with
  | stationKeep => exact ⟨.inl rfl, nofun, nofun⟩
  | waypoint | vision | obstacle => exact ⟨h.states, nofun, nofun⟩

/-- In every run. -/
theorem run_stationInv (hrun : run (step F atan2) (init start) as = some s) :
    StationInv F atan2 start as s := by
  induction as using List.reverseRecOn generalizing s with
  | nil =>
    obtain rfl := Option.some.inj hrun
    exact ⟨.inl rfl, nofun, nofun⟩
  | append_singleton as a ih =>
    obtain ⟨t, ht, hstep⟩ := run_concat_eq_some.mp hrun
    by_cases hStarts : Starts a
    · obtain ⟨challenge, rfl⟩ := hStarts
      obtain rfl := Option.some.inj hstep
      exact (ih ht).started challenge
    · by_cases hIterate : IsIterate a
      · obtain ⟨now, later, rfl⟩ := hIterate
        exact (ih ht).iterate ht hstep
      · exact (ih ht).same (step_sameMachines hstep hStarts hIterate) hStarts hIterate

/-- **Station keeping.** In every run, while `STATION_KEEP` is selected, the boat is on its way,
or holds the station that it reached less than 280 seconds before the last `Iterate`, or has left
it after more than 280 seconds; a station is only reached when the waypoints are done, and the
states `BACK` and `FORTH` are never entered. -/
theorem station_keeping (F : Formats) (atan2 : Fp → Fp → Fp) (start : Int) (as : List ManagerMsg)
    (hrun : run (step F atan2) (init start) as = some s) (hMode : s.mode = .stationKeep) :
    s.stationKeepState = .gotoStart ∨
    (s.stationKeepState = .wait ∧ ∃ t, Holding F atan2 start as t) ∨
    (s.stationKeepState = .leave ∧ Left F atan2 start as) := by
  have hInv := run_stationInv hrun
  rcases hInv.states with hGo | hWait | hLeave
  · exact .inl hGo
  · obtain ⟨t, -, hHolding⟩ := hInv.wait hMode hWait
    exact .inr (.inl ⟨hWait, t, hHolding⟩)
  · exact .inr (.inr ⟨hLeave, hInv.leave hMode hLeave⟩)

/-- The station is reached at the time 5 and left more than 280 seconds later. -/
theorem station_keeping_left :
    ∃ s, run (step .exact fun _ _ => .num 0) (init 0)
        [.challengeControl (some .stationKeep), .tackerState { done := some true }, .iterate 5 5,
          .iterate 6 6, .iterate (seconds 281) 0] = some s ∧ s.stationKeepState = .leave ∧
      Left .exact (fun _ _ => .num 0) 0
        [.challengeControl (some .stationKeep), .tackerState { done := some true }, .iterate 5 5,
          .iterate 6 6, .iterate (seconds 281) 0] := by
  refine ⟨_, rfl, rfl, ?_⟩
  rcases station_keeping .exact (fun _ _ => .num 0) 0
    [.challengeControl (some .stationKeep), .tackerState { done := some true }, .iterate 5 5,
      .iterate 6 6, .iterate (seconds 281) 0] rfl rfl with hGo | ⟨hWait, -⟩ | ⟨-, hLeft⟩
  · cases hGo
  · cases hWait
  · exact hLeft

-- ---------------------------------------------------------------------------
-- Avoiding obstacles
-- ---------------------------------------------------------------------------

/-- What is published is a heading to the side to which the boat turned for the obstacle. -/
def SteersAside (F : Formats) (s s' : WaypointManager) : Prop :=
  ∃ heading, normAngle F (.add F.float s.initialAvoidDiffHeading s.boatYaw) = some heading ∧
    s'.out =
      s.out ++ [.headingCmd { s.headingCmdMsg with heading := some (.conv F.float heading) }]

/-- What an `Iterate` does to the machine for obstacles. -/
inductive ObstacleMove (F : Formats) (s s' : WaypointManager) : Prop
  | stay (state : s'.obstacleState = s.obstacleState) (cnt : s'.obsCnt = s.obsCnt)
      (idle : s.mode = .obstacle → s.obstacleState = .waypoint)
  | turn (mode : s.mode = .obstacle) (before : s.obstacleState = .waypoint)
      (far : s.nearWaypoint = false) (seen : kVisionObstacleThreshold < s.visionConfidence)
      (after : s'.obstacleState = .avoid) (cnt : s'.obsCnt = 0)
  | avoid (mode : s.mode = .obstacle) (before : s.obstacleState = .avoid)
      (after : s'.obstacleState = .avoid) (cnt : s'.obsCnt = wrapInt (s.obsCnt + 1))
      (aside : SteersAside F s s')
  | done (before : s.obstacleState = .avoid) (after : s'.obstacleState = .waypoint)
      (late : 50 < wrapInt (s.obsCnt + 1)) (lost : s.visionConfidence < kVisionObstacleThreshold)

/-- Station keeping leaves the machine for obstacles alone. -/
theorem doStationKeep_obstacle (h : s.doStationKeep F now later = some s') :
    s'.obstacleState = s.obstacleState ∧ s'.obsCnt = s.obsCnt := by
  unfold doStationKeep at h
  cases hState : s.stationKeepState with
  | gotoStart | wait | forth =>
    rw [hState] at h
    dsimp only at h
    split at h <;>
    · obtain rfl := Option.some.inj h
      exact ⟨rfl, rfl⟩
  | back =>
    rw [hState] at h
    simp only [Option.bind_eq_bind, Option.bind_eq_some_iff] at h
    obtain ⟨heading, _, h⟩ := h
    split at h <;>
    · obtain rfl := Option.some.inj h
      exact ⟨rfl, rfl⟩
  | leave =>
    rw [hState] at h
    simp only [Option.bind_eq_bind, Option.bind_eq_some_iff, Option.some.injEq] at h
    obtain ⟨heading, _, rfl⟩ := h
    exact ⟨rfl, rfl⟩

/-- In its mode, an `Iterate` moves the machine for obstacles. -/
theorem doObstacleAvoid_move (hMode : s.mode = .obstacle) (h : s.doObstacleAvoid F = some s') :
    ObstacleMove F s s' := by
  unfold doObstacleAvoid at h
  cases hState : s.obstacleState with
  | waypoint =>
    rw [hState] at h
    dsimp only at h
    split at h
    · next hTurn =>
      obtain ⟨diff, _, rfl⟩ := Option.map_eq_some_iff.mp h
      exact .turn hMode hState (by simpa using hTurn.1) hTurn.2 rfl rfl
    · obtain rfl := Option.some.inj h
      exact .stay rfl rfl fun _ => hState
  | avoid =>
    rw [hState] at h
    simp only [Option.bind_eq_bind, Option.bind_eq_some_iff] at h
    obtain ⟨heading, hHeading, h⟩ := h
    split at h
    · next hDone =>
      obtain rfl := Option.some.inj h
      exact .done hState rfl hDone.1 hDone.2
    · obtain rfl := Option.some.inj h
      exact .avoid hMode hState rfl rfl ⟨heading, hHeading, rfl⟩

/-- In every mode, an `Iterate` moves it, or leaves it alone. -/
theorem iterate_obstacleMove (h : s.iterate F now later = some s') : ObstacleMove F s s' := by
  unfold iterate at h
  split at h
  · next hMode =>
    obtain ⟨hState, hCnt⟩ := doStationKeep_obstacle h
    exact .stay hState hCnt fun hObstacle => absurd (hMode.symm.trans hObstacle) (by decide)
  · next hMode =>
    obtain rfl := Option.some.inj h
    exact .stay rfl rfl fun hObstacle => absurd (hMode.symm.trans hObstacle) (by decide)
  · next hMode =>
    obtain rfl := Option.some.inj h
    obtain ⟨-, -, -, hState, hCnt⟩ := doVisionSearch_same (F := F) s
    exact .stay hState hCnt fun hObstacle => absurd (hMode.symm.trans hObstacle) (by decide)
  · next hMode => exact doObstacleAvoid_move hMode h

def isIterate : ManagerMsg → Bool
  | .iterate _ _ => true
  | _ => false

/-- What is not an `Iterate` counts for none. -/
theorem not_isIterate (h : ¬ IsIterate a) : isIterate a = false := by
  cases a with
  | iterate now later => exact absurd ⟨now, later, rfl⟩ h
  | sbus _ | tackerState _ | challengeControl _ | trueWind _ _ | visionData _ | boatState _ => rfl

/-- In the state `t` the message starts no challenge, and an `Iterate` finds the boat avoiding an
obstacle, steers it aside and goes on avoiding. -/
def Aside (F : Formats) (atan2 : Fp → Fp → Fp) (t : WaypointManager) (a : ManagerMsg) : Prop :=
  ¬ Starts a ∧ (isIterate a = true → t.mode = .obstacle ∧ t.obstacleState = .avoid ∧
    ∀ t', step F atan2 t a = some t' → t'.obstacleState = .avoid ∧ SteersAside F t t')

/-- The actions `as` turned aside for an obstacle that was seen away from the waypoints, and have
steered aside in each of the `n` `Iterate`s since; no challenge was started meanwhile. -/
def Avoiding (F : Formats) (atan2 : Fp → Fp → Fp) (start : Int) (as : List ManagerMsg) (n : Nat) :
    Prop :=
  ∃ pre now later mid p q, as = pre ++ .iterate now later :: mid ∧
    run (step F atan2) (init start) pre = some p ∧ p.mode = .obstacle ∧
    p.obstacleState = .waypoint ∧ p.nearWaypoint = false ∧
    kVisionObstacleThreshold < p.visionConfidence ∧
    step F atan2 p (.iterate now later) = some q ∧ q.obstacleState = .avoid ∧
    Along (step F atan2) (Aside F atan2) q mid ∧ mid.countP isIterate = n

/-- One more step aside, or something else between two of them. -/
theorem Avoiding.concat {n : Nat} (h : Avoiding F atan2 start as n)
    (hrun : run (step F atan2) (init start) as = some s) (hAside : Aside F atan2 s a) :
    Avoiding F atan2 start (as ++ [a]) (n + (isIterate a).toNat) := by
  obtain ⟨pre, now, later, mid, p, q, rfl, hp, hMode, hState, hFar, hSeen, hq, hAvoid, hMid, rfl⟩ :=
    h
  have hmid : run (step F atan2) q mid = some s := by
    rw [run_append, hp, Option.bind_some, run_cons, hq, Option.bind_some] at hrun
    exact hrun
  refine ⟨pre, now, later, mid ++ [a], p, q, by simp, hp, hMode, hState, hFar, hSeen, hq, hAvoid,
    (along_concat hmid).mpr ⟨hMid, hAside⟩, ?_⟩
  rw [List.countP_append]
  cases h : isIterate a <;> simp [h]

/-- The counter, as long as the boat avoids an obstacle. -/
def ObstacleInv (F : Formats) (atan2 : Fp → Fp → Fp) (start : Int) (as : List ManagerMsg)
    (s : WaypointManager) : Prop :=
  s.mode = .obstacle → s.obstacleState = .avoid →
    ∃ n : Nat, s.obsCnt = wrapInt n ∧ Avoiding F atan2 start as n

/-- The counter wraps around once, however often it is counted on. -/
theorem wrapInt_succ (n : Int) : wrapInt (wrapInt n + 1) = wrapInt (n + 1) := by
  unfold wrapInt
  omega

/-- An `Iterate` sights the obstacle, counts, or is done with it. -/
theorem ObstacleInv.iterate (h : ObstacleInv F atan2 start as s)
    (hrun : run (step F atan2) (init start) as = some s)
    (hIter : s.iterate F now later = some s') :
    ObstacleInv F atan2 start (as ++ [.iterate now later]) s' := by
  have hStarts : ¬ Starts (.iterate now later) := by
    rintro ⟨challenge, hEq⟩
    cases hEq
  have hSame := (iterate_stationMove hIter).1
  intro hMode hAvoid
  rw [hSame] at hMode
  cases iterate_obstacleMove hIter with
  | stay state cnt idle => exact absurd ((idle hMode).symm.trans (state ▸ hAvoid)) (by decide)
  | turn mode before far seen after cnt =>
    exact ⟨0, cnt, as, now, later, [], s, s', rfl, hrun, mode, before, far, seen, hIter, after,
      trivial, rfl⟩
  | avoid mode before after cnt aside =>
    obtain ⟨n, hCnt, hAvoiding⟩ := h hMode before
    refine ⟨n + 1, ?_, hAvoiding.concat hrun ⟨hStarts, fun _ => ⟨mode, before, ?_⟩⟩⟩
    · rw [cnt, hCnt, wrapInt_succ]
      rfl
    · intro t' ht'
      obtain rfl := Option.some.inj (ht'.symm.trans hIter)
      exact ⟨after, aside⟩
  | done before after late lost => exact absurd (after.symm.trans hAvoid) (by decide)

/-- In every run. -/
theorem run_obstacleInv (hrun : run (step F atan2) (init start) as = some s) :
    ObstacleInv F atan2 start as s := by
  induction as using List.reverseRecOn generalizing s with
  | nil =>
    obtain rfl := Option.some.inj hrun
    exact nofun
  | append_singleton as a ih =>
    obtain ⟨t, ht, hstep⟩ := run_concat_eq_some.mp hrun
    by_cases hStarts : Starts a
    · obtain ⟨challenge, rfl⟩ := hStarts
      obtain rfl := Option.some.inj hstep
      cases challenge <;> exact nofun
    · by_cases hIterate : IsIterate a
      · obtain ⟨now, later, rfl⟩ := hIterate
        exact (ih ht).iterate ht hstep
      · have hSame := step_sameMachines hstep hStarts hIterate
        intro hMode hAvoid
        obtain ⟨n, hCnt, hAvoiding⟩ := ih ht (hSame.mode ▸ hMode) (hSame.obstacle ▸ hAvoid)
        have hNot := not_isIterate hIterate
        have hMore := hAvoiding.concat ht ⟨hStarts, fun hIter => absurd (hNot.symm.trans hIter)
          Bool.false_ne_true⟩
        rw [hNot] at hMore
        exact ⟨n, hSame.cnt.trans hCnt, hMore⟩

/-- **Avoiding an obstacle.** In every run, an `Iterate` that goes back to the waypoints comes
after at least fifty `Iterate`s since the obstacle was seen away from the waypoints. Each of them
was avoiding it and published a heading aside, no challenge was started in between, and the
obstacle is not seen any more. -/
theorem avoids_for_long (F : Formats) (atan2 : Fp → Fp → Fp) (start : Int) (as : List ManagerMsg)
    (hrun : run (step F atan2) (init start) as = some s)
    (hstep : step F atan2 s (.iterate now later) = some s') (hMode : s.mode = .obstacle)
    (hAvoid : s.obstacleState = .avoid) (hBack : s'.obstacleState = .waypoint) :
    ∃ n, 50 ≤ n ∧ Avoiding F atan2 start as n ∧ s.visionConfidence < kVisionObstacleThreshold := by
  obtain ⟨n, hCnt, hAvoiding⟩ := run_obstacleInv hrun hMode hAvoid
  cases iterate_obstacleMove hstep with
  | stay state _ _ => exact absurd ((state.trans hAvoid).symm.trans hBack) (by decide)
  | turn _ before _ _ _ _ => exact absurd (before.symm.trans hAvoid) (by decide)
  | avoid _ _ after _ _ => exact absurd (after.symm.trans hBack) (by decide)
  | done before after late lost =>
    refine ⟨n, ?_, hAvoiding, lost⟩
    rw [hCnt, wrapInt_succ, wrapInt] at late
    omega

/-- An obstacle is seen, avoided for fifty `Iterate`s, and lost. -/
def aside : List ManagerMsg :=
  [.challengeControl (some .obstacle),
    .visionData { heading := some (.num 1), confidence := some (.num 300) }] ++
  List.replicate 51 (.iterate 0 0) ++
  [.visionData { heading := some (.num 1), confidence := some (.num 100) }]

/-- The boat is steered aside fifty times and more. -/
theorem avoids_for_long_fifty :
    ∃ n, 50 ≤ n ∧ Avoiding .exact (fun _ _ => .num 0) 0 aside n := by
  obtain ⟨s', hs'⟩ := Option.isSome_iff_exists.mp
    (show (run (step .exact fun _ _ => .num 0) (init 0) (aside ++ [.iterate 0 0])).isSome by
      decide +kernel)
  obtain ⟨s, hs, hstep⟩ := run_concat_eq_some.mp hs'
  have hBefore : (run (step .exact fun _ _ => .num 0) (init 0) aside).map
      (fun s => (s.mode, s.obstacleState)) = some (.obstacle, .avoid) := by
    decide +kernel
  have hAfter : (run (step .exact fun _ _ => .num 0) (init 0) (aside ++ [.iterate 0 0])).map
      (·.obstacleState) = some .waypoint := by
    decide +kernel
  rw [hs] at hBefore
  rw [hs'] at hAfter
  obtain ⟨hMode, hAvoid⟩ := Prod.mk.inj (Option.some.inj hBefore)
  obtain ⟨n, hn, hAvoiding, -⟩ :=
    avoids_for_long .exact _ 0 _ hs hstep hMode hAvoid (Option.some.inj hAfter)
  exact ⟨n, hn, hAvoiding⟩

-- ---------------------------------------------------------------------------
-- Searching
-- ---------------------------------------------------------------------------

def searchState? : ManagerOut → Option SearchState
  | .searchState state => some state
  | _ => none

/-- What was published on `search_state`. -/
def searchStates (s : WaypointManager) : List SearchState := s.out.filterMap searchState?

/-- A mode that is sent is no state of the search. -/
theorem searchStates_sendControlMode (s : WaypointManager) (msg : ControlMode) :
    (s.sendControlMode msg).searchStates = s.searchStates := by
  rw [searchStates, sendControlMode, List.filterMap_append]
  exact List.append_nil _

/-- Neither is a heading. -/
theorem searchStates_sendHeadingCmd (s : WaypointManager) (msg : HeadingCmd) :
    (s.sendHeadingCmd msg).searchStates = s.searchStates := by
  rw [searchStates, sendHeadingCmd, List.filterMap_append]
  exact List.append_nil _

/-- A state of the search is put behind the others. -/
theorem searchStates_sendSearchState (s : WaypointManager) (state : SearchState) :
    (s.sendSearchState state).searchStates = s.searchStates ++ [state] := by
  rw [searchStates, sendSearchState, List.filterMap_append]
  rfl

/-- The target is seen, and the boat is where it may go to it. -/
def SeesTarget (s : WaypointManager) : Prop :=
  (s.tackerDone = true ∨ 1 ≤ s.lastWaypoint) ∧ kVisionConfidenceThreshold < s.visionConfidence

/-- What an `Iterate` tells of the search. -/
inductive VisionMove (s s' : WaypointManager) : SearchState → Prop
  | nothing (before : s.visionState = .followWaypoints) (unseen : ¬ SeesTarget s)
      (after : s'.visionState = .followWaypoints) : VisionMove s s' .noTarget
  | seen (before : s.visionState = .followWaypoints) (sees : SeesTarget s)
      (after : s'.visionState = .followVision) (msg : s'.searchStateMsg = .goingToBuoy) :
      VisionMove s s' .goingToBuoy
  | found (before : s.visionState = .followVision)
      (near : kVisionFoundThreshold < s.visionConfidence)
      (after : s'.visionState = .followVision) (msg : s'.searchStateMsg = .atBuoy) :
      VisionMove s s' .atBuoy
  | going (before : s.visionState = .followVision)
      (far : s.visionConfidence ≤ kVisionFoundThreshold) (after : s'.visionState = .followVision)
      (msg : s'.searchStateMsg = s.searchStateMsg) : VisionMove s s' s.searchStateMsg

/-- Every round of the search publishes one state, and moves accordingly. -/
theorem doVisionSearch_move (s : WaypointManager) : (s.doVisionSearch F).mode = s.mode ∧
    ∃ state, (s.doVisionSearch F).searchStates = s.searchStates ++ [state] ∧
      VisionMove s (s.doVisionSearch F) state := by
  unfold doVisionSearch
  cases hState : s.visionState with
  | followWaypoints =>
    dsimp only
    split
    · next hSees =>
      refine ⟨rfl, .goingToBuoy, ?_, .seen hState hSees rfl rfl⟩
      rw [searchStates_sendSearchState, searchStates_sendControlMode]
      rfl
    · next hNot =>
      exact ⟨rfl, .noTarget, searchStates_sendSearchState _ _, .nothing hState hNot hState⟩
  | followVision =>
    dsimp only
    split
    · next hFound =>
      refine ⟨rfl, .atBuoy, ?_, .found hState hFound hState rfl⟩
      rw [searchStates_sendSearchState, searchStates_sendControlMode]
      exact congrArg (· ++ _) ((searchStates_sendHeadingCmd _ _).trans
        (searchStates_sendHeadingCmd _ _))
    · next hFar =>
      rw [gt_iff_lt, not_lt] at hFar
      split
      · refine ⟨rfl, s.searchStateMsg, ?_, .going hState hFar hState rfl⟩
        rw [searchStates_sendSearchState, searchStates_sendControlMode, searchStates_sendHeadingCmd]
        rfl
      · refine ⟨rfl, s.searchStateMsg, ?_, .going hState hFar hState rfl⟩
        rw [searchStates_sendSearchState, searchStates_sendHeadingCmd]
        rfl

/-- The handlers tell nothing of the search. -/
structure SameSearch (s s' : WaypointManager) : Prop where
  mode   : s'.mode = s.mode
  state  : s'.visionState = s.visionState
  msg    : s'.searchStateMsg = s.searchStateMsg
  states : s'.searchStates = s.searchStates

/-- Other messages leave the search alone, but for what was seen. -/
theorem step_sameSearch (h : step F atan2 s a = some s') (hStarts : ¬ Starts a)
    (hIterate : ¬ IsIterate a) : SameSearch s s' := by
  cases a with
  | sbus channel =>
    obtain rfl := Option.some.inj h
    rcases onSbus_cases s channel with ⟨_, hEq⟩ | ⟨_, _, _, _, hEq⟩ | ⟨_, _, _, _, hEq⟩ |
      ⟨_, _, _, _, hEq⟩
    · rw [hEq]
      exact ⟨rfl, rfl, rfl, rfl⟩
    · rw [hEq]
      exact ⟨rfl, rfl, rfl, rfl⟩
    all_goals
      rw [hEq]
      exact ⟨rfl, rfl, rfl, searchStates_sendControlMode _ _⟩
  | challengeControl challenge =>
    cases challenge with
    | none =>
      obtain rfl := Option.some.inj h
      exact ⟨rfl, rfl, rfl, searchStates_sendHeadingCmd _ _⟩
    | some challenge => exact absurd ⟨challenge, rfl⟩ hStarts
  | visionData data =>
    rw [step, onVisionData] at h
    split at h
    · simp only [Option.bind_eq_bind, Option.bind_eq_some_iff, Option.some.injEq] at h
      obtain ⟨heading, _, confidence, _, rfl⟩ := h
      exact ⟨rfl, rfl, rfl, rfl⟩
    · obtain rfl := Option.some.inj h
      exact ⟨rfl, rfl, rfl, rfl⟩
  | tackerState _ | trueWind _ _ | boatState _ =>
    obtain rfl := Option.some.inj h
    exact ⟨rfl, rfl, rfl, rfl⟩
  | iterate now later => exact absurd ⟨now, later, rfl⟩ hIterate

/-- The target is not seen in any `Iterate`. -/
def Unseen (F : Formats) (atan2 : Fp → Fp → Fp) (s : WaypointManager) (as : List ManagerMsg) :
    Prop :=
  Along (step F atan2) (fun p a => isIterate a = true → ¬ SeesTarget p) s as

/-- No `Iterate` is near the target that comes after one which has seen it. -/
def Unfound (F : Formats) (atan2 : Fp → Fp → Fp) (s : WaypointManager) (as : List ManagerMsg) :
    Prop :=
  ∀ pre now later post p, as = pre ++ .iterate now later :: post →
    run (step F atan2) s pre = some p → ¬ Unseen F atan2 s pre →
      p.visionConfidence ≤ kVisionFoundThreshold

/-- With one more step, the buoy stays unfound unless an `Iterate` sees it well enough. -/
theorem unfound_concat {t : WaypointManager} (hrun : run (step F atan2) s as = some t) :
    Unfound F atan2 s (as ++ [a]) ↔ Unfound F atan2 s as ∧
      (IsIterate a → ¬ Unseen F atan2 s as → t.visionConfidence ≤ kVisionFoundThreshold) := by
  constructor
  · intro h
    refine ⟨?_, ?_⟩
    · rintro pre now later post p rfl
      exact h pre now later (post ++ [a]) p (by simp)
    · rintro ⟨now, later, rfl⟩
      exact h as now later [] t rfl hrun
  · rintro ⟨hBefore, hHere⟩ pre now later post p hEq hp hSeen
    rcases List.eq_nil_or_concat post with rfl | ⟨post, b, rfl⟩
    · obtain ⟨rfl, hLast⟩ := List.append_inj' hEq rfl
      obtain rfl := Option.some.inj (hrun.symm.trans hp)
      exact hHere ⟨now, later, List.singleton_inj.mp hLast⟩ hSeen
    · rw [List.concat_eq_append, ← List.cons_append, ← List.append_assoc] at hEq
      exact hBefore pre now later post p (List.append_inj' hEq rfl).1 hp hSeen

/-- A search that was started in the state `s` has told of no target `i` times, then that the boat
is going to it `j` times, and then that it is there `k` times. -/
structure Searched (F : Formats) (atan2 : Fp → Fp → Fp) (s : WaypointManager)
    (as : List ManagerMsg) (i j k : Nat) (s' : WaypointManager) : Prop where
  states  : s'.searchStates = s.searchStates ++ (List.replicate i .noTarget ++
    (List.replicate j .goingToBuoy ++ List.replicate k .atBuoy))
  count   : i + j + k = as.countP isIterate
  unseen  : j = 0 ↔ Unseen F atan2 s as
  found   : k = 0 ↔ Unfound F atan2 s as
  order   : 0 < k → 0 < j

/-- The state of the machine then. -/
structure SearchInv (F : Formats) (atan2 : Fp → Fp → Fp) (s : WaypointManager)
    (as : List ManagerMsg) (i j k : Nat) (s' : WaypointManager) : Prop
    extends Searched F atan2 s as i j k s' where
  mode   : s'.mode = .vision
  before : j = 0 → s'.visionState = .followWaypoints
  after  : 0 < j → s'.visionState = .followVision ∧
    s'.searchStateMsg = if k = 0 then .goingToBuoy else .atBuoy

/-- What leaves the search alone leaves the account of it. -/
theorem SearchInv.same {t t' : WaypointManager} {i j k : Nat}
    (h : SearchInv F atan2 s as i j k t) (hrun : run (step F atan2) s as = some t)
    (hSame : SameSearch t t') (hIterate : ¬ IsIterate a) :
    SearchInv F atan2 s (as ++ [a]) i j k t' := by
  have hNot := not_isIterate hIterate
  have hFound : k = 0 ↔ Unfound F atan2 s (as ++ [a]) := by
    rw [h.found, unfound_concat hrun]
    exact (and_iff_left fun hIter => absurd hIter hIterate).symm
  refine ⟨⟨hSame.states.trans h.states, ?_, ?_, hFound, h.order⟩, hSame.mode.trans h.mode, ?_, ?_⟩
  · rw [List.countP_append, h.count]
    simp [hNot]
  · rw [h.unseen, Unseen, Unseen, along_concat hrun]
    simp [hNot]
  · intro hj
    rw [hSame.state]
    exact h.before hj
  · intro hj
    rw [hSame.state, hSame.msg]
    exact h.after hj

/-- An `Iterate` in the mode publishes what the account says next. -/
theorem SearchInv.iterate {t t' : WaypointManager} {i j k : Nat} {state : SearchState}
    (h : SearchInv F atan2 s as i j k t) (hrun : run (step F atan2) s as = some t)
    (hMode : t'.mode = t.mode) (hStates : t'.searchStates = t.searchStates ++ [state])
    (hMove : VisionMove t t' state) :
    ∃ i j k, SearchInv F atan2 s (as ++ [.iterate now later]) i j k t' := by
  have hCount : (as ++ [ManagerMsg.iterate now later]).countP isIterate =
      as.countP isIterate + 1 := by
    rw [List.countP_append]
    rfl
  have hUnseen : Unseen F atan2 s (as ++ [.iterate now later]) ↔
      Unseen F atan2 s as ∧ ¬ SeesTarget t := by
    rw [Unseen, along_concat hrun]
    exact and_congr_right fun _ => ⟨fun hNot => hNot rfl, fun hNot _ => hNot⟩
  have hFound : Unfound F atan2 s (as ++ [.iterate now later]) ↔ k = 0 ∧
      (j ≠ 0 → t.visionConfidence ≤ kVisionFoundThreshold) := by
    rw [unfound_concat hrun, h.found, ← h.unseen]
    exact and_congr_right fun _ => ⟨fun hNear => hNear ⟨now, later, rfl⟩, fun hNear _ => hNear⟩
  have hFollowing : t.visionState = .followVision → 0 < j := by
    intro hState
    refine Nat.pos_of_ne_zero fun hZero => ?_
    exact absurd ((h.before hZero).symm.trans hState) (by decide)
  have hWaiting : t.visionState = .followWaypoints → j = 0 ∧ k = 0 := by
    intro hState
    have hj : j = 0 := Nat.eq_zero_of_not_pos fun hPos =>
      absurd (hState.symm.trans (h.after hPos).1) (by decide)
    exact ⟨hj, Nat.eq_zero_of_not_pos fun hPos => absurd (h.order hPos) (by omega)⟩
  cases hMove with
  | nothing before unseen after =>
    -- one `NO_TARGET` more
    obtain ⟨rfl, rfl⟩ := hWaiting before
    refine ⟨i + 1, 0, 0, ⟨?_, by rw [hCount, ← h.count], ?_, by simp [hFound], by omega⟩,
      hMode.trans h.mode, fun _ => after, fun hPos => absurd hPos (by decide)⟩
    · rw [hStates, h.states]
      simp [List.replicate_succ']
    · rw [hUnseen]
      exact ⟨fun _ => ⟨h.unseen.mp rfl, unseen⟩, fun _ => rfl⟩
  | seen before sees after msg =>
    -- the sighting itself; that it may be above the threshold does not count yet
    obtain ⟨rfl, rfl⟩ := hWaiting before
    refine ⟨i, 1, 0, ⟨?_, by rw [hCount, ← h.count], ?_, by simp [hFound], by omega⟩,
      hMode.trans h.mode, fun hZero => absurd hZero (by decide), fun _ => ⟨after, msg⟩⟩
    · rw [hStates, h.states]
      simp
    · rw [hUnseen]
      exact ⟨fun hZero => absurd hZero (by decide), fun hNot => absurd sees hNot.2⟩
  | found before near after msg =>
    have hPos := hFollowing before
    refine ⟨i, j, k + 1, ⟨?_, by rw [hCount, ← h.count]; omega, ?_, ?_, fun _ => hPos⟩,
      hMode.trans h.mode, fun hZero => absurd hZero (by omega), fun _ => ⟨after, msg⟩⟩
    · rw [hStates, h.states]
      simp [List.replicate_succ']
    · rw [hUnseen, ← h.unseen]
      exact ⟨fun hZero => absurd hZero (by omega), fun hNot => hNot.1⟩
    · rw [hFound]
      exact ⟨fun hZero => absurd hZero (by omega),
        fun hAll => absurd (hAll.2 hPos.ne') (not_le.mpr near)⟩
  | going before far after msg =>
    have hPos := hFollowing before
    obtain ⟨-, hMsg⟩ := h.after hPos
    have hSeen : j = 0 ↔ Unseen F atan2 s (as ++ [.iterate now later]) := by
      rw [hUnseen, ← h.unseen]
      exact ⟨fun hZero => absurd hZero (by omega), fun hNot => hNot.1⟩
    -- the message stays as it is: `GOING_TO_BUOY`, or `AT_BUOY` once that was sent
    rcases Nat.eq_zero_or_pos k with rfl | hThere
    · rw [if_pos rfl] at hMsg
      rw [hMsg] at hStates
      refine ⟨i, j + 1, 0,
        ⟨?_, by rw [hCount, ← h.count]; omega, ?_, by simp [hFound, far], by omega⟩,
        hMode.trans h.mode, fun hZero => absurd hZero (by omega),
        fun _ => ⟨after, msg.trans hMsg⟩⟩
      · rw [hStates, h.states]
        simp [List.replicate_succ']
      · rw [← hSeen]
        omega
    · rw [if_neg (by omega)] at hMsg
      rw [hMsg] at hStates
      refine ⟨i, j, k + 1, ⟨?_, by rw [hCount, ← h.count]; omega, hSeen, ?_, fun _ => hPos⟩,
        hMode.trans h.mode, fun hZero => absurd hZero (by omega),
        fun _ => ⟨after, msg.trans hMsg⟩⟩
      · rw [hStates, h.states]
        simp [List.replicate_succ']
      · rw [hFound]
        omega

/-- In every run in which no challenge starts. -/
theorem run_searchInv {t : WaypointManager} (hMode : s.mode = .vision)
    (hState : s.visionState = .followWaypoints) (hNone : ∀ a ∈ as, ¬ Starts a)
    (hrun : run (step F atan2) s as = some t) : ∃ i j k, SearchInv F atan2 s as i j k t := by
  induction as using List.reverseRecOn generalizing t with
  | nil =>
    obtain rfl := Option.some.inj hrun
    exact ⟨0, 0, 0, ⟨by simp, rfl, ⟨fun _ => trivial, fun _ => rfl⟩, by simp [Unfound], by omega⟩,
      hMode, fun _ => hState, fun hPos => absurd hPos (by decide)⟩
  | append_singleton as a ih =>
    obtain ⟨u, hu, hstep⟩ := run_concat_eq_some.mp hrun
    obtain ⟨i, j, k, hInv⟩ := ih (fun b hb => hNone b (List.mem_append_left _ hb)) hu
    have hStarts := hNone a (List.mem_append_right _ List.mem_cons_self)
    by_cases hIterate : IsIterate a
    · obtain ⟨now, later, rfl⟩ := hIterate
      have hVision : t = u.doVisionSearch F := by
        rw [step, iterate, hInv.mode] at hstep
        exact (Option.some.inj hstep).symm
      obtain ⟨hSame, state, hStates, hMove⟩ := doVisionSearch_move (F := F) u
      rw [← hVision] at hSame hStates hMove
      exact hInv.iterate hu hSame hStates hMove
    · exact ⟨i, j, k, hInv.same hu (step_sameSearch hstep hStarts hIterate) hIterate⟩

/-- **Searching.** After `VISION` was selected and while no challenge is, every `Iterate` tells of
the search: some times of no target, then that the boat is going to it, and then that it is there;
never back. It is going to the target as soon as an `Iterate` sees it where it may go to it, and is
there as soon as a later `Iterate` is near it. -/
theorem searching (F : Formats) (atan2 : Fp → Fp → Fp) (s : WaypointManager)
    (as : List ManagerMsg) {t : WaypointManager} (hNone : ∀ a ∈ as, ¬ Starts a)
    (hrun : run (step F atan2) s (.challengeControl (some .vision) :: as) = some t) :
    ∃ i j k, Searched F atan2 (s.onChallengeControl (some .vision)) as i j k t := by
  obtain ⟨u, hu, hrun⟩ := run_cons_eq_some.mp hrun
  obtain rfl := Option.some.inj hu
  obtain ⟨i, j, k, hInv⟩ := run_searchInv rfl rfl hNone hrun
  exact ⟨i, j, k, hInv.toSearched⟩

/-- A target that is seen when the waypoints are done, lost again, and found. -/
theorem searching_seen_and_found : ∃ t i j k,
    run (step .exact fun _ _ => .num 0) (init 0) [.challengeControl (some .vision),
      .tackerState { done := some true }, .iterate 0 0,
      .visionData { heading := some (.num 1), confidence := some (.num 300) }, .iterate 1 1,
      .visionData { heading := some (.num 1), confidence := some (.num 100) }, .iterate 2 2,
      .visionData { heading := some (.num 1), confidence := some (.num 800) }, .iterate 3 3] =
        some t ∧
    t.searchStates = [.noTarget, .noTarget, .goingToBuoy, .goingToBuoy, .atBuoy] ∧
    Searched .exact (fun _ _ => .num 0) ((init 0).onChallengeControl (some .vision))
      [.tackerState { done := some true }, .iterate 0 0,
        .visionData { heading := some (.num 1), confidence := some (.num 300) }, .iterate 1 1,
        .visionData { heading := some (.num 1), confidence := some (.num 100) }, .iterate 2 2,
        .visionData { heading := some (.num 1), confidence := some (.num 800) }, .iterate 3 3]
      i j k t := by
  have hStates : (run (step .exact fun _ _ => .num 0) (init 0) [.challengeControl (some .vision),
      .tackerState { done := some true }, .iterate 0 0,
      .visionData { heading := some (.num 1), confidence := some (.num 300) }, .iterate 1 1,
      .visionData { heading := some (.num 1), confidence := some (.num 100) }, .iterate 2 2,
      .visionData { heading := some (.num 1), confidence := some (.num 800) }, .iterate 3 3]).map
        searchStates = some [.noTarget, .noTarget, .goingToBuoy, .goingToBuoy, .atBuoy] := by
    decide +kernel
  obtain ⟨t, hrun, hTold⟩ := Option.map_eq_some_iff.mp hStates
  obtain ⟨i, j, k, hSearched⟩ := searching .exact _ (init 0) _ (by
    intro a ha hStarts
    obtain ⟨challenge, rfl⟩ := hStarts
    simp at ha) hrun
  exact ⟨t, i, j, k, hrun, hTold, hSearched⟩

end Sailbot.Control.WaypointManager
