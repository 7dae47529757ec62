import Sailbot.Control.Challenges
import Sailbot.Control.LinePlan
import Sailbot.Control.Scamp
import Sailbot.Lib.Channel
import Sailbot.Management.Monitor

/-!
# Who steers

The waypoint manager and the page tell on `control_mode` in which modes the other nodes are to be;
the planner, `SCAMP` and the monitor listen (`scripts/startup.sh` starts these nodes). Each node
keeps to itself what it was told last. The queue is a channel (`Ipc.ring_refines_channel`): a node
may be late, and may miss messages.

Every handler and every `Iterate` of a node is one step. The nodes run a thread for each queue and
test the mode without a lock: what is said here is not said of a handler or an `Iterate` that is
overtaken by a change of modes between its test and what it does then.

* `Helm.step`               — the nodes take their steps in any order.
* `Helm.modes_agree`        — nodes that were given the last message for a mode agree on it.
* `Helm.stick_has_the_boat` — while the operator has taken over, nothing but the stick moves rudder
  and winch, from the message on with which he took over.
* `Helm.planner_silent`     — while the manager steers, the planner publishes no heading.
-/

namespace Sailbot.Control

open Lib
open WaypointManager (controlMode? OverrideInv NoChallenge KeepsTarget Harmless ActuatorField)

-- ---------------------------------------------------------------------------
-- What the manager publishes
-- ---------------------------------------------------------------------------

namespace WaypointManager

variable {F : Formats} {atan2 : Fp → Fp → Fp} {s s' : WaypointManager} {a : ManagerMsg}

/-- The mode messages that a step publishes. -/
def newModes (s s' : WaypointManager) : List ControlMode :=
  (s'.out.drop s.out.length).filterMap controlMode?

/-- What a step publishes is what it appends. -/
theorem newModes_of_append {sent : List ManagerOut} {modes : List ControlMode}
    (h : s'.out = s.out ++ sent) (hModes : sent.filterMap controlMode? = modes) :
    newModes s s' = modes := by
  rw [newModes, h, List.drop_left, hModes]

/-- What a step publishes of modes: nothing, the two modes of the switch, those of a challenge
that is started, or the tacker of an `Iterate`. -/
theorem newModes_cases (h : step F atan2 s a = some s') :
    (newModes s s' = [] ∧ (s'.Steering → s.Steering) ∧
      s'.lastSbusManual = s.lastSbusManual) ∨
    (∃ channel m, a = .sbus channel ∧ newModes s s' = [actuatorModes m] ∧
      (s'.Steering → s.Steering) ∧
      (s'.lastSbusManual = true → s.lastSbusManual = false ∧ m = .filteredRc)) ∨
    (∃ challenge, a = .challengeControl (some challenge) ∧ ¬ s'.Steering ∧
      s'.lastSbusManual = s.lastSbusManual ∧ (challenge = .waypoint → newModes s s' = [])) ∨
    (∃ now later msg, a = .iterate now later ∧ newModes s s' = [msg] ∧
      Transition now s s' (some msg) ∧ s'.lastSbusManual = s.lastSbusManual) := by
  rcases step_cases h with hQuiet | ⟨channel, rfl, rfl⟩ | ⟨challenge, rfl, rfl⟩ |
    ⟨now, later, rfl, hIter⟩
  · exact .inl ⟨newModes_of_append ((List.append_nil _).trans hQuiet.out.symm).symm rfl,
      hQuiet.steering.mp, hQuiet.lastSbusManual⟩
  · rcases onSbus_cases s channel with ⟨_, hEq⟩ | ⟨c, _, _, _, hEq⟩ | ⟨c, _, _, hManual, hEq⟩ |
      ⟨c, _, _, hManual, hEq⟩
    all_goals rw [hEq]
    · exact .inl ⟨newModes_of_append (List.append_nil _).symm rfl, id, rfl⟩
    · exact .inl ⟨newModes_of_append (List.append_nil _).symm rfl, id, rfl⟩
    · have hOut : (s.sendControlMode (actuatorModes .filteredRc)).out =
          s.out ++ [.controlMode (actuatorModes .filteredRc)] := rfl
      exact .inr (.inl ⟨channel, .filteredRc, rfl, newModes_of_append hOut rfl, id,
        fun _ => ⟨hManual, rfl⟩⟩)
    · have hOut : (s.sendControlMode (actuatorModes .auto)).out =
          s.out ++ [.controlMode (actuatorModes .auto)] := rfl
      exact .inr (.inl ⟨channel, .auto, rfl, newModes_of_append hOut rfl, id, nofun⟩)
  · cases challenge with
    | none =>
      have hOut : (s.onChallengeControl none).out = s.out ++
          [.headingCmd { s.headingCmdMsg with extraSail := some (.num 0) }] := rfl
      exact .inl ⟨newModes_of_append hOut rfl, id, rfl⟩
    | some challenge =>
      refine .inr (.inr (.inl ⟨challenge, rfl, onChallengeControl_not_steering s _,
        onChallengeControl_lastSbusManual s _, ?_⟩))
      rintro rfl
      have hOut : (s.onChallengeControl (some .waypoint)).out = s.out ++
          [.headingCmd { s.headingCmdMsg with extraSail := some (.num 0) }] := rfl
      exact newModes_of_append hOut rfl
  · obtain ⟨headings, msg, searches, hIter⟩ := iterate_cases hIter
    have hModes : newModes s s' = msg.toList := by
      refine newModes_of_append hIter.out ?_
      cases msg <;> simp [controlMode?, List.filterMap_map, Function.comp_def]
    cases msg with
    | none =>
      cases hIter.transition with
      | stay _ keeps => exact .inl ⟨hModes, keeps.mp, hIter.lastSbusManual⟩
    | some msg =>
      exact .inr (.inr (.inr
        ⟨now, later, msg, rfl, hModes, hIter.transition, hIter.lastSbusManual⟩))

/-- A step after which the manager steers: it did before and sends no tacker, or it switches the
tacker off. -/
theorem newModes_of_steering (hKeeps : KeepsTarget s a) (h : step F atan2 s a = some s')
    (hSteering : s'.Steering) :
    (s.Steering ∧ ∀ m ∈ newModes s s', m.tacker = none) ∨
    ∃ m, newModes s s' = [m] ∧ m.tacker = some .disabled := by
  rcases newModes_cases h with ⟨hNone, hSteers, -⟩ | ⟨channel, m, -, hNew, hSteers, -⟩ |
    ⟨challenge, -, hNot, -⟩ | ⟨now, later, msg, rfl, hNew, hTransition, -⟩
  · refine .inl ⟨hSteers hSteering, ?_⟩
    rw [hNone]
    exact fun m hm => absurd hm List.not_mem_nil
  · refine .inl ⟨hSteers hSteering, ?_⟩
    rw [hNew]
    intro m hm
    rw [List.mem_singleton.mp hm]
    rfl
  · exact absurd hSteering hNot
  · refine .inr ⟨msg, hNew, ?_⟩
    cases hTransition with
    | takeOver _ _ | again _ => rfl
    | giveBack _ released => exact absurd (released hSteering) hKeeps

/-- A step after which the operator has taken over: he had before and no other mode is sent, or
this is the step in which he does. -/
theorem newModes_of_manual {field : ControlMode → Option Mode} (hField : ActuatorField field)
    (hInv : OverrideInv field s) (hNo : NoChallenge s a) (h : step F atan2 s a = some s')
    (hManual : s'.lastSbusManual = true) :
    (s.lastSbusManual = true ∧ ∀ m ∈ newModes s s', Harmless (field m)) ∨
    (s.lastSbusManual = false ∧ newModes s s' = [actuatorModes .filteredRc]) := by
  rcases newModes_cases h with ⟨hNone, -, hSame⟩ | ⟨channel, m, rfl, hNew, -, hSwitch⟩ |
    ⟨challenge, rfl, -, hSame, hWaypoint⟩ | ⟨now, later, msg, rfl, hNew, hTransition, hSame⟩
  · refine .inl ⟨hSame ▸ hManual, ?_⟩
    rw [hNone]
    exact fun m hm => absurd hm List.not_mem_nil
  · obtain ⟨hBefore, rfl⟩ := hSwitch hManual
    exact .inr ⟨hBefore, hNew⟩
  · have hBefore : s.lastSbusManual = true := hSame ▸ hManual
    refine .inl ⟨hBefore, ?_⟩
    rw [hWaypoint (hNo hBefore)]
    exact fun m hm => absurd hm List.not_mem_nil
  · have hBefore : s.lastSbusManual = true := hSame ▸ hManual
    refine .inl ⟨hBefore, ?_⟩
    rw [hNew]
    intro m hm
    rw [List.mem_singleton.mp hm]
    exact hTransition.harmless hField (hInv.left hBefore)

end WaypointManager

-- ---------------------------------------------------------------------------
-- The nodes that listen
-- ---------------------------------------------------------------------------

def LinePlanMsg.mode? {R : Type} : LinePlanMsg R → Option ControlMode
  | .controlMode mode => some mode
  | _ => none

def ScampMsg.mode? : ScampMsg → Option ControlMode
  | .controlMode mode => some mode
  | _ => none

namespace LinePlan

variable {R : Type} [Arith R] {v : Bool} {s t : LinePlan R} {a : LinePlanMsg R}

/-- The mode and the headings that were published stay. -/
def Keeps (s t : LinePlan R) : Prop := t.tackMode = s.tackMode ∧ t.headingQueue = s.headingQueue

/-- A new course leaves what the planner was told. -/
theorem withCourse_keeps (s : LinePlan R) : Keeps s s.withCourse := by
  unfold withCourse
  split <;> exact ⟨rfl, rfl⟩

/-- Only an `Iterate` in `LINE_PLAN` publishes a heading, and only `control_mode` changes the
mode. -/
theorem keeps_cases (h : step v s a = some t) :
    Keeps s t ∨ (∃ mode, a = .controlMode mode ∧
      t = { s with tackMode := mode.tacker.getD s.tackMode }) ∨
    (a = .iterate ∧ s.tackMode = .linePlan ∧ t.tackMode = s.tackMode) := by
  cases a with
  | waypoints msg =>
    rcases step_cases h with ⟨msg, -, ⟨-, rfl⟩ | ⟨-, u, hu, rfl⟩⟩ | ⟨_, _, _, hAct, -⟩ |
      ⟨_, _, hAct, -⟩ | ⟨hNot, -⟩
    · exact .inl ⟨rfl, rfl⟩
    · left
      rcases hu with rfl | ⟨first, rfl⟩
      · exact withCourse_keeps _
      · have hInner := withCourse_keeps ((s.takeWaypoints msg).inFrame first)
        have hOuter := withCourse_keeps ((s.takeWaypoints msg).inFrame first).withCourse
        exact ⟨hOuter.1.trans hInner.1, hOuter.2.trans hInner.2⟩
    · cases hAct
    · cases hAct
    · exact absurd rfl (hNot msg)
  | obstacles polygons =>
    rcases step_cases h with ⟨_, hAct, -⟩ | ⟨_, _, _, hAct, -⟩ | ⟨_, lonlat, -, rfl⟩ |
      ⟨-, -, hAside⟩
    · cases hAct
    · cases hAct
    · exact .inl ⟨rfl, rfl⟩
    · rw [step, receiveObstacles] at h
      split at h
      · cases h
      · obtain rfl := Option.some.inj h
        exact .inl ⟨rfl, rfl⟩
  | controlMode mode => exact .inr (.inl ⟨mode, rfl, (Option.some.inj h).symm⟩)
  | boatState pos yaw =>
    obtain ⟨u, hMove, hInc⟩ := Option.bind_eq_some_iff.mp h
    obtain ⟨next, cnt, msg, queue, rfl, -⟩ := updateWaypointInc_eq hInc
    left
    rcases moveRef_cases hMove with rfl | rfl
    · exact ⟨rfl, rfl⟩
    · exact withCourse_keeps ((s.takeBoatState pos yaw).inFrame _)
  | trueWind wind =>
    obtain rfl := Option.some.inj h
    exact .inl ⟨rfl, rfl⟩
  | iterate =>
    rw [step, iterate] at h
    split at h
    · obtain rfl := Option.some.inj h
      exact .inl ⟨rfl, rfl⟩
    next hMode =>
    split at h
    · obtain rfl := Option.some.inj h
      exact .inl ⟨rfl, rfl⟩
    · simp only [Option.bind_eq_bind, Option.bind_eq_some_iff] at h
      obtain ⟨⟨u, heading⟩, hHeading, h⟩ := h
      obtain ⟨pts, rfl⟩ := getGoalHeading_cases hHeading
      obtain rfl := Option.some.inj h
      exact .inr (.inr ⟨rfl, not_not.mp hMode, rfl⟩)

end LinePlan

namespace Scamp

variable {F : Formats} {s s' : Scamp} {a : ScampMsg}

/-- Only `control_mode` changes a mode. -/
theorem mode_kept (h : step F s a = some s') (hOther : a.mode? = none)
    (act : Actuator) : s'.mode act = s.mode act := by
  rcases step_cases h with hHandled | ⟨mode, rfl, -⟩ | ⟨rfl, rfl⟩
  · exact (hHandled.wrote act).1
  · cases hOther
  · exact (iterate_wrote (F := F) act).1

/-- While rudder and winch are with the stick, an SBUS message is the only step that writes to the
rudder or sets the volts of the winch, and an `Iterate` the only one that turns them. -/
structure ByStick (F : Formats) (s : Scamp) (a : ScampMsg) (s' : Scamp) : Prop where
  rudder : s'.rawRudder = s.rawRudder ∨
    ∃ channel c n, a = .sbus channel ∧ channel[3]? = some c ∧
      Fp.toInt (.num (-((sbusToRaw c : ℚ) - 90) * (6 / 10) + s.consts.getRudderZero)) = some n ∧
      s'.rawRudder = n
  volts : s'.voltsWinch = s.voltsWinch ∨
    ∃ channel c, a = .sbus channel ∧ channel[1]? = some c ∧
      s'.voltsWinch = truncate (-((sbusToRaw c : ℚ) - 90) * 6 / 90)
  winch : s'.rawWinch = s.rawWinch ∨
    a = .iterate ∧ s'.rawWinch = winchRaw s.consts (s.limitVolts s.voltsWinch)

/-- While rudder and winch are with the stick, only an SBUS message sets the volts of the winch. -/
theorem volts_byStick (hRudder : s.rudderMode = .filteredRc) (hWinch : s.winchMode = .filteredRc)
    (hOther : a.mode? = none) (h : step F s a = some s') :
    s'.voltsWinch = s.voltsWinch ∨
      ∃ channel c, a = .sbus channel ∧ channel[1]? = some c ∧
        s'.voltsWinch = truncate (-((sbusToRaw c : ℚ) - 90) * 6 / 90) := by
  cases a with
  | zeroingConsts _ | connectionStatus _ =>
    obtain rfl := Option.some.inj h
    exact .inl rfl
  | ballastState ballast =>
    obtain rfl := Option.some.inj h
    cases ballast <;> exact .inl rfl
  | analogPot val =>
    simp only [step, onAnalogPot, Option.bind_eq_bind, Option.bind_eq_some_iff,
      Option.some.injEq] at h
    obtain ⟨angle, -, turned, -, rfl⟩ := h
    exact .inl rfl
  | sailCmd cmd | manualSailCmd cmd =>
    -- the winch is not in the mode of the queue
    rw [step, acceptSailCmd, hWinch, if_neg (by decide)] at h
    obtain rfl := Option.some.inj h
    exact .inl rfl
  | rudderCmd cmd | manualRudderCmd cmd =>
    rw [step, acceptRudderCmd, hRudder, if_neg (by decide)] at h
    obtain rfl := Option.some.inj h
    exact .inl rfl
  | ballastCmd cmd | manualBallastCmd cmd =>
    rw [step, acceptBallastCmd, setRawFromBallastCmd] at h
    split at h
    · split at h
      · obtain ⟨n, -, rfl⟩ := Option.map_eq_some_iff.mp h
        exact .inl rfl
      · obtain ⟨n, -, rfl⟩ := Option.map_eq_some_iff.mp h
        exact .inl rfl
      · obtain rfl := Option.some.inj h
        exact .inl rfl
    · obtain rfl := Option.some.inj h
      exact .inl rfl
  | sbus channel =>
    rw [step, onSbus] at h
    split at h
    · obtain ⟨t, hTurned, hPulled⟩ := Option.bind_eq_some_iff.mp h
      obtain ⟨⟨n, rfl⟩, -⟩ := sbusRudder_wrote (F := F) hTurned
      have hMode : ({ s with rawRudder := n } : Scamp).winchMode = .filteredRc := hWinch
      rw [sbusWinch, hMode] at hPulled
      obtain ⟨c, hc, rfl⟩ := Option.map_eq_some_iff.mp hPulled
      exact .inr ⟨channel, c, rfl, hc, rfl⟩
    · obtain rfl := Option.some.inj h
      exact .inl rfl
  | controlMode mode => cases hOther
  | iterate =>
    obtain rfl := Option.some.inj h
    left
    unfold iterate updateWinch
    split <;> rfl

/-- While rudder and winch are with the stick, every message that is no mode message keeps to it. -/
theorem byStick (hRudder : s.rudderMode = .filteredRc) (hWinch : s.winchMode = .filteredRc)
    (hOther : a.mode? = none) (h : step F s a = some s') : ByStick F s a s' := by
  have hWrote : ∀ act, Wrote F s a s' act := by
    intro act
    rcases step_cases h with hHandled | ⟨mode, rfl, -⟩ | ⟨rfl, rfl⟩
    · exact hHandled.wrote act
    · cases hOther
    · exact iterate_wrote act
  refine ⟨?_, volts_byStick hRudder hWinch hOther h, ?_⟩
  · refine (hWrote .rudder).2.imp_right ?_
    intro hWritten
    generalize hn : s'.raw .rudder = n at hWritten
    cases hWritten with
    | rudderCmd accepts _ =>
      rcases accepts with ⟨-, hMode⟩ | ⟨-, hMode⟩ <;>
        exact absurd (hRudder.symm.trans hMode) (by decide)
    | manualRudder selected _ => exact absurd (hRudder.symm.trans selected) (by decide)
    | @filteredRudder channel c n _ isChannel value =>
      exact ⟨channel, c, n, rfl, isChannel, value, hn⟩
  · refine (hWrote .winch).2.imp_right ?_
    intro hWritten
    generalize hn : s'.raw .winch = n at hWritten
    cases hWritten with
    | manualWinch selected _ => exact absurd (hWinch.symm.trans selected) (by decide)
    | volts _ => exact ⟨rfl, hn⟩

/-- A change of modes that leaves rudder and winch with the stick. -/
theorem onControlMode_raw {mode : ControlMode}
    (hRudder : (s.onControlMode mode).rudderMode = .filteredRc)
    (hWinch : (s.onControlMode mode).winchMode = .filteredRc) :
    (s.onControlMode mode).rawRudder = s.rawRudder ∧
    (s.onControlMode mode).rawWinch = s.rawWinch := by
  have hRaw : ∀ n, neutralIfDisabled .filteredRc n = n := fun n => if_neg (by decide)
  constructor
  · show neutralIfDisabled (s.onControlMode mode).rudderMode s.rawRudder = s.rawRudder
    rw [hRudder, hRaw]
  · show neutralIfDisabled (s.onControlMode mode).winchMode s.rawWinch = s.rawWinch
    rw [hWinch, hRaw]

end Scamp

-- ---------------------------------------------------------------------------
-- The nodes together
-- ---------------------------------------------------------------------------

/-- The nodes that listen. -/
inductive HelmNode
  | planner
  | scamp
  | monitor
  deriving DecidableEq

structure Helm (R : Type) where
  manager : WaypointManager
  planner : LinePlan R
  scamp   : Scamp
  monitor : Monitor
  /-- `control_mode`. -/
  modes   : Channel ControlMode HelmNode
  /-- The position of the message with which the operator took over last. -/
  takeOver : Nat := 0

inductive HelmAction (R : Type)
  | manager (a : ManagerMsg)
  /-- The page sends modes. -/
  | page (mode : ControlMode)
  /-- A node is given an entry of the queue. -/
  | give (r : HelmNode) (i : Nat)
  | planner (a : LinePlanMsg R)
  | scamp (a : ScampMsg)
  | monitor (a : MonitorMsg)

namespace Helm

variable {R : Type} [Arith R]

/-- All nodes after their constructors. -/
def init (F : Formats) (start : Int) (planner : LinePlan R) (file : Option ZeroingConstants) :
    Helm R where
  manager := .init start
  planner := .init planner
  scamp := .init F file
  monitor := {}
  modes := .empty

section Step

variable (F : Formats) (atan2 : Fp → Fp → Fp) (v : Bool)

/-- The manager takes a step; what it publishes is sent. -/
def afterManager (s : Helm R) (manager : WaypointManager) : Helm R :=
  { s with
    manager := manager
    modes := s.modes.send (s.manager.newModes manager)
    takeOver := if !s.manager.lastSbusManual && manager.lastSbusManual then s.modes.sent.length
      else s.takeOver }

def withPlanner (s : Helm R) (planner : LinePlan R) : Helm R := { s with planner := planner }

def withScamp (s : Helm R) (scamp : Scamp) : Helm R := { s with scamp := scamp }

def withMonitor (s : Helm R) (monitor : Monitor) : Helm R := { s with monitor := monitor }

/-- A node gets a mode message: the handlers of `control_mode`. -/
def hear (s : Helm R) (mode : ControlMode) : HelmNode → Helm R
  | .planner => s.withPlanner { s.planner with tackMode := mode.tacker.getD s.planner.tackMode }
  | .scamp => s.withScamp (s.scamp.onControlMode mode)
  | .monitor => s.withMonitor (s.monitor.onControlMode mode)

/-- The nodes get mode messages from the queue only. -/
def step (s : Helm R) : HelmAction R → Option (Helm R)
  | .manager a => (s.manager.step F atan2 a).map s.afterManager
  | .page mode => some { s with modes := s.modes.send [mode] }
  | .give r i =>
    if s.modes.Ready r i then
      s.modes.sent[i]?.map fun mode => { s with modes := s.modes.give r i }.hear mode r
    else none
  | .planner a => if a.mode?.isSome then none else (LinePlan.step v s.planner a).map s.withPlanner
  | .scamp a => if a.mode?.isSome then none else (Scamp.step F s.scamp a).map s.withScamp
  | .monitor a =>
    if (Monitor.mode? a).isSome then none else some (s.withMonitor (s.monitor.step a))

end Step

section Run

variable {F : Formats} {atan2 : Fp → Fp → Fp} {v : Bool} {s t : Helm R} {a : HelmAction R}

/-- Everything that a step can do, one case for each action. -/
theorem step_cases (h : step F atan2 v s a = some t) :
    (∃ b m, a = .manager b ∧ WaypointManager.step F atan2 s.manager b = some m ∧
      t = s.afterManager m) ∨
    (∃ mode, a = .page mode ∧ t = { s with modes := s.modes.send [mode] }) ∨
    (∃ r i mode, a = .give r i ∧ s.modes.Ready r i ∧ s.modes.sent[i]? = some mode ∧
      t = { s with modes := s.modes.give r i }.hear mode r) ∨
    (∃ b u, a = .planner b ∧ b.mode? = none ∧ LinePlan.step v s.planner b = some u ∧
      t = s.withPlanner u) ∨
    (∃ b u, a = .scamp b ∧ b.mode? = none ∧ Scamp.step F s.scamp b = some u ∧ t = s.withScamp u) ∨
    (∃ b, a = .monitor b ∧ Monitor.mode? b = none ∧ t = s.withMonitor (s.monitor.step b)) := by
  cases a with
  | manager b =>
    obtain ⟨m, hm, rfl⟩ := Option.map_eq_some_iff.mp h
    exact .inl ⟨b, m, rfl, hm, rfl⟩
  | page mode => exact .inr (.inl ⟨mode, rfl, (Option.some.inj h).symm⟩)
  | give r i =>
    obtain ⟨hReady, h⟩ := Option.ite_none_right_eq_some.mp h
    obtain ⟨mode, hMode, rfl⟩ := Option.map_eq_some_iff.mp h
    exact .inr (.inr (.inl ⟨r, i, mode, rfl, hReady, hMode, rfl⟩))
  | planner b =>
    obtain ⟨hNone, h⟩ := Option.ite_none_left_eq_some.mp h
    obtain ⟨u, hu, rfl⟩ := Option.map_eq_some_iff.mp h
    exact .inr (.inr (.inr (.inl ⟨b, u, rfl, by simpa using hNone, hu, rfl⟩)))
  | scamp b =>
    obtain ⟨hNone, h⟩ := Option.ite_none_left_eq_some.mp h
    obtain ⟨u, hu, rfl⟩ := Option.map_eq_some_iff.mp h
    exact .inr (.inr (.inr (.inr (.inl ⟨b, u, rfl, by simpa using hNone, hu, rfl⟩))))
  | monitor b =>
    obtain ⟨hNone, h⟩ := Option.ite_none_left_eq_some.mp h
    exact .inr (.inr (.inr (.inr (.inr ⟨b, rfl, by simpa using hNone, (Option.some.inj h).symm⟩))))

-- ---------------------------------------------------------------------------
-- What each node was told
-- ---------------------------------------------------------------------------

/-- The field of an actuator in a mode message. -/
def modeField : Actuator → ControlMode → Option Mode
  | .rudder => (·.rudderMode)
  | .winch => (·.winchMode)
  | .ballast => (·.ballastMode)

/-- What the monitor tells of an actuator. -/
def shownMode (state : SailbotState) : Actuator → Mode
  | .rudder => state.rudder
  | .winch => state.winch
  | .ballast => state.ballast

/-- Each node is in the modes that it was told last. -/
structure Told (s : Helm R) : Prop where
  ordered : s.modes.Ordered
  planner : s.planner.tackMode = latest (·.tacker) .linePlan (s.modes.received .planner)
  scamp   : ∀ act, s.scamp.mode act = latest (modeField act) .disable (s.modes.received .scamp)
  monitor : s.monitor.state = Monitor.told (s.modes.received .monitor)

omit [Arith R] in
/-- Messages that nobody has got yet change nothing of what the nodes were told. -/
theorem Told.send (h : Told s) (modes : List ControlMode) :
    Told { s with modes := s.modes.send modes } where
  ordered := h.ordered.send modes
  planner := h.planner.trans (by rw [h.ordered.received_send])
  scamp act := (h.scamp act).trans (by rw [h.ordered.received_send])
  monitor := h.monitor.trans (by rw [h.ordered.received_send])

omit [Arith R] in
/-- A node that gets a mode message is in the modes of that message. -/
theorem Told.hear {r : HelmNode} {i : Nat} {mode : ControlMode} (hTold : Told s)
    (hReady : s.modes.Ready r i) (hMode : s.modes.sent[i]? = some mode) :
    Told ({ s with modes := s.modes.give r i }.hear mode r) := by
  have hOrdered := hTold.ordered.give hReady
  have hSelf := Channel.received_give_self (r := r) hMode
  have hOthers : ∀ q, q ≠ r → (s.modes.give r i).received q = s.modes.received q :=
    fun q hq => Channel.received_give_of_ne hq
  cases r with
  | planner =>
    refine ⟨hOrdered, ?_, ?_, ?_⟩
    · show mode.tacker.getD s.planner.tackMode =
        latest _ _ ((s.modes.give .planner i).received .planner)
      rw [hSelf, latest_concat, hTold.planner]
    · intro act
      exact (hTold.scamp act).trans (by rw [← hOthers .scamp (by decide)]; rfl)
    · exact hTold.monitor.trans (by rw [← hOthers .monitor (by decide)]; rfl)
  | scamp =>
    refine ⟨hOrdered, ?_, ?_, ?_⟩
    · exact hTold.planner.trans (by rw [← hOthers .planner (by decide)]; rfl)
    · intro act
      show (s.scamp.onControlMode mode).mode act =
        latest _ _ ((s.modes.give .scamp i).received .scamp)
      rw [hSelf, latest_concat, ← hTold.scamp act]
      cases act <;> rfl
    · exact hTold.monitor.trans (by rw [← hOthers .monitor (by decide)]; rfl)
  | monitor =>
    refine ⟨hOrdered, ?_, ?_, ?_⟩
    · exact hTold.planner.trans (by rw [← hOthers .planner (by decide)]; rfl)
    · intro act
      exact (hTold.scamp act).trans (by rw [← hOthers .scamp (by decide)]; rfl)
    · show (s.monitor.onControlMode mode).state =
        Monitor.told ((s.modes.give .monitor i).received .monitor)
      rw [hSelf]
      exact Monitor.onControlMode_told hTold.monitor mode

/-- Every step leaves each node in the modes that it was told last. -/
theorem step_told (hTold : Told s) (h : step F atan2 v s a = some t) : Told t := by
  rcases step_cases h with ⟨b, m, -, -, rfl⟩ | ⟨mode, -, rfl⟩ |
    ⟨r, i, mode, -, hReady, hMode, rfl⟩ | ⟨b, u, -, hOther, hu, rfl⟩ | ⟨b, u, -, hOther, hu, rfl⟩ |
    ⟨b, -, hOther, rfl⟩
  · have hSent := hTold.send (s.manager.newModes m)
    exact ⟨hSent.ordered, hSent.planner, hSent.scamp, hSent.monitor⟩
  · exact hTold.send [mode]
  · exact hTold.hear hReady hMode
  · refine ⟨hTold.ordered, ?_, hTold.scamp, hTold.monitor⟩
    rcases LinePlan.keeps_cases hu with hKeeps | ⟨mode, rfl, -⟩ | ⟨-, -, hMode⟩
    · exact hKeeps.1.trans hTold.planner
    · cases hOther
    · exact hMode.trans hTold.planner
  · refine ⟨hTold.ordered, hTold.planner, ?_, hTold.monitor⟩
    intro act
    exact (Scamp.mode_kept hu hOther act).trans (hTold.scamp act)
  · refine ⟨hTold.ordered, hTold.planner, hTold.scamp, ?_⟩
    refine Eq.trans ?_ hTold.monitor
    cases b with
    | controlMode mode => cases hOther
    | connectionStatus _ | rigidWingFeedback _ | iterate _ => rfl

/-- At the start nothing was sent, and each node is in its first mode. -/
theorem init_told (F : Formats) (start : Int) (planner : LinePlan R)
    (file : Option ZeroingConstants) : Told (init F start planner file) where
  ordered := Channel.ordered_empty
  planner := rfl
  scamp act := by cases act <;> rfl
  monitor := rfl

/-- Each node is in the modes that it was told last, in every state that a run reaches. -/
theorem run_told {start : Int} {planner : LinePlan R} {file : Option ZeroingConstants}
    {as : List (HelmAction R)}
    (hrun : run (step F atan2 v) (init F start planner file) as = some s) : Told s :=
  inv_of_run_forall (fun _ _ _ hTold hstep => step_told hTold hstep)
    (init_told F start planner file) hrun

/-- **Who was told the last mode is in it.** In every run, a node that was given the last message
which sets a mode is in that mode, whatever other messages it missed or has not been given yet: the
servos are driven in the mode that was set last, the planner plans in it, and the monitor tells it.
Before any message the servos are disabled and the planner plans. -/
theorem modes_agree (F : Formats) (atan2 : Fp → Fp → Fp) (v : Bool) (start : Int)
    (planner : LinePlan R) (file : Option ZeroingConstants) (as : List (HelmAction R))
    (hrun : run (step F atan2 v) (init F start planner file) as = some s) :
    (∀ act, s.modes.Informed (modeField act) .scamp →
      s.scamp.mode act = latest (modeField act) .disable s.modes.sent) ∧
    (s.modes.Informed (·.tacker) .planner →
      s.planner.tackMode = latest (·.tacker) .linePlan s.modes.sent) ∧
    (∀ act, s.modes.Informed (modeField act) .monitor →
      shownMode s.monitor.state act = latest (modeField act) .disable s.modes.sent) ∧
    (s.modes.Informed (·.tacker) .monitor →
      s.monitor.state.tacker = latest (·.tacker) .none s.modes.sent) := by
  have hTold := run_told hrun
  refine ⟨?_, ?_, ?_, ?_⟩
  · intro act hInformed
    rw [hTold.scamp act, hTold.ordered.latest_received_eq hInformed]
  · intro hInformed
    rw [hTold.planner, hTold.ordered.latest_received_eq hInformed]
  · intro act hInformed
    rw [hTold.monitor, ← hTold.ordered.latest_received_eq hInformed]
    cases act <;> rfl
  · intro hInformed
    rw [hTold.monitor, ← hTold.ordered.latest_received_eq hInformed]
    rfl

/-- `SCAMP` has not been given the second message, which is about the ballast. -/
theorem modes_agree_late :
    ∃ s, run (step .exact (fun _ _ => .num 0) false)
        (init .exact 0 (LinePlan.zeroed : LinePlan (Double .exact .atZero)) none)
        [.page { rudderMode := some .manualWifi }, .page { ballastMode := some .auto },
          .give .scamp 0] = some s ∧ s.scamp.mode .rudder = .manualWifi := by
  refine ⟨_, rfl, ?_⟩
  refine ((modes_agree .exact (fun _ _ => .num 0) false 0 _ none
    [.page { rudderMode := some .manualWifi }, .page { ballastMode := some .auto },
      .give .scamp 0] rfl).1 .rudder ?_).trans rfl
  rintro k w ⟨⟨m, hSent, hSet⟩, -⟩
  rcases k with _ | _ | k
  · exact List.mem_cons_self
  · obtain rfl := Option.some.inj hSent
    cases hSet
  · cases hSent

-- ---------------------------------------------------------------------------
-- The stick
-- ---------------------------------------------------------------------------

/-- The modes of rudder and winch are set by the RC switch. -/
theorem modeField_actuatorField {act : Actuator} (h : act ≠ .ballast) :
    ActuatorField (modeField act) := by
  cases act with
  | rudder => exact WaypointManager.rudderMode_actuatorField
  | winch => exact WaypointManager.winchMode_actuatorField
  | ballast => exact absurd rfl h

/-- While the operator has taken over, no challenge with a state machine is started and the page
gives rudder and winch to nobody else. -/
def LeavesStick (s : Helm R) : HelmAction R → Prop
  | .manager a => NoChallenge s.manager a
  | .page mode => s.manager.lastSbusManual = true →
    ∀ act, act ≠ Actuator.ballast → Harmless (modeField act mode)
  | _ => True

/-- The queue from the message on with which the operator took over. -/
structure StickInv (s : Helm R) : Prop where
  told     : Told s
  override : ∀ act, act ≠ .ballast → OverrideInv (modeField act) s.manager
  message  : s.manager.lastSbusManual = true →
    s.modes.sent[s.takeOver]? = some (WaypointManager.actuatorModes .filteredRc)
  settled  : s.manager.lastSbusManual = true → ∀ act, act ≠ .ballast →
    s.modes.SettledFrom (modeField act) s.takeOver .filteredRc

omit [Arith R] in
/-- Messages that are harmless for rudder and winch keep the override. -/
theorem StickInv.send (h : StickInv s) {modes : List ControlMode}
    (hAll : s.manager.lastSbusManual = true → ∀ act, act ≠ .ballast →
      ∀ m ∈ modes, Harmless (modeField act m)) :
    StickInv { s with modes := s.modes.send modes } where
  told := h.told.send modes
  override := h.override
  message hManual := by
    have hSent := h.message hManual
    exact (List.getElem?_append_left (List.getElem?_eq_some_iff.mp hSent).1).trans hSent
  settled hManual act hAct := (h.settled hManual act hAct).send (hAll hManual act hAct)

omit [Arith R] in
/-- A step of the manager that starts no challenge with a state machine keeps the override. -/
theorem StickInv.afterManager (hStick : StickInv s) {b : ManagerMsg} {m : WaypointManager}
    (hNo : NoChallenge s.manager b) (hm : WaypointManager.step F atan2 s.manager b = some m)
    (hTold : Told (s.afterManager m)) : StickInv (s.afterManager m) := by
  have hNew : m.lastSbusManual = true → ∀ act, act ≠ .ballast →
      (s.manager.lastSbusManual = true ∧
        ∀ mode ∈ s.manager.newModes m, Harmless (modeField act mode)) ∨
      (s.manager.lastSbusManual = false ∧
        s.manager.newModes m = [WaypointManager.actuatorModes .filteredRc]) :=
    fun hManual act hAct => WaypointManager.newModes_of_manual (modeField_actuatorField hAct)
      (hStick.override act hAct) hNo hm hManual
  refine ⟨hTold, ?_, ?_, ?_⟩
  · intro act hAct
    exact WaypointManager.step_overrideInv (modeField_actuatorField hAct) (hStick.override act hAct)
      hNo hm
  · intro hManual
    rcases hNew hManual .rudder (by decide) with ⟨hBefore, -⟩ | ⟨hBefore, hModes⟩
    · have hSent := hStick.message hBefore
      rw [Helm.afterManager, hBefore]
      exact (List.getElem?_append_left (List.getElem?_eq_some_iff.mp hSent).1).trans hSent
    · rw [Helm.afterManager, hBefore, show m.lastSbusManual = true from hManual, hModes]
      exact List.getElem?_concat_length
  · intro hManual act hAct
    rcases hNew hManual act hAct with ⟨hBefore, hHarmless⟩ | ⟨hBefore, hModes⟩
    · rw [Helm.afterManager, hBefore]
      exact (hStick.settled hBefore act hAct).send hHarmless
    · rw [Helm.afterManager, hBefore, show m.lastSbusManual = true from hManual, hModes]
      refine (s.modes.settledFrom_length _ _).send ?_
      intro mode hMode
      rw [List.mem_singleton.mp hMode]
      cases act with
      | rudder | winch => exact .inr rfl
      | ballast => exact absurd rfl hAct

/-- Every step that leaves the stick the boat keeps the override. -/
theorem step_stickInv (hStick : StickInv s) (hLeaves : LeavesStick s a)
    (h : step F atan2 v s a = some t) : StickInv t := by
  have hTold := step_told hStick.told h
  rcases step_cases h with ⟨b, m, rfl, hm, rfl⟩ | ⟨mode, rfl, rfl⟩ |
    ⟨r, i, mode, rfl, -, -, rfl⟩ | ⟨b, u, -, -, -, rfl⟩ | ⟨b, u, -, -, -, rfl⟩ | ⟨b, -, -, rfl⟩
  · exact hStick.afterManager hLeaves hm hTold
  · refine hStick.send ?_
    intro hManual act hAct m hMode
    rw [List.mem_singleton.mp hMode]
    exact hLeaves hManual act hAct
  · cases r <;> exact ⟨hTold, hStick.override, hStick.message, hStick.settled⟩
  · exact ⟨hTold, hStick.override, hStick.message, hStick.settled⟩
  · exact ⟨hTold, hStick.override, hStick.message, hStick.settled⟩
  · exact ⟨hTold, hStick.override, hStick.message, hStick.settled⟩

/-- At the start the operator has not taken over. -/
theorem init_stickInv (F : Formats) (start : Int) (planner : LinePlan R)
    (file : Option ZeroingConstants) : StickInv (init F start planner file) where
  told := init_told F start planner file
  override _ _ := WaypointManager.init_overrideInv start
  message := nofun
  settled := nofun

/-- `SCAMP` was given the message with which the operator took over, and is in `FILTERED_RC`;
nothing but the stick moves rudder and winch. -/
def StickMoves (F : Formats) (atan2 : Fp → Fp → Fp) (v : Bool) (s : Helm R) (a : HelmAction R) :
    Prop :=
  s.manager.lastSbusManual = true → s.takeOver ∈ s.modes.got .scamp →
    s.scamp.rudderMode = .filteredRc ∧ s.scamp.winchMode = .filteredRc ∧
    ∀ t, step F atan2 v s a = some t →
      (∃ b, a = .scamp b ∧ Scamp.ByStick F s.scamp b t.scamp) ∨
      (t.scamp.rawRudder = s.scamp.rawRudder ∧ t.scamp.rawWinch = s.scamp.rawWinch ∧
        t.scamp.voltsWinch = s.scamp.voltsWinch)

omit [Arith R] in
/-- Once `SCAMP` was given the message of the override, rudder and winch are with the stick. -/
theorem StickInv.mode (hStick : StickInv s) (hManual : s.manager.lastSbusManual = true)
    (hGot : s.takeOver ∈ s.modes.got .scamp) {act : Actuator} (hAct : act ≠ .ballast) :
    s.scamp.mode act = .filteredRc := by
  rw [hStick.told.scamp act]
  refine hStick.told.ordered.latest_received hGot (hStick.message hManual) ?_
    (hStick.settled hManual act hAct) _
  cases act with
  | rudder | winch => rfl
  | ballast => exact absurd rfl hAct

/-- So nothing but the stick moves them. -/
theorem StickInv.stickMoves (hStick : StickInv s) : StickMoves F atan2 v s a := by
  intro hManual hGot
  have hRudder : s.scamp.rudderMode = .filteredRc :=
    hStick.mode hManual hGot (show Actuator.rudder ≠ .ballast by decide)
  have hWinch : s.scamp.winchMode = .filteredRc :=
    hStick.mode hManual hGot (show Actuator.winch ≠ .ballast by decide)
  refine ⟨hRudder, hWinch, ?_⟩
  intro t h
  rcases step_cases h with ⟨b, m, -, -, rfl⟩ | ⟨mode, -, rfl⟩ |
    ⟨r, i, mode, rfl, hReady, hMode, rfl⟩ | ⟨b, u, -, -, -, rfl⟩ | ⟨b, u, rfl, hOther, hu, rfl⟩ |
    ⟨b, -, -, rfl⟩
  · exact .inr ⟨rfl, rfl, rfl⟩
  · exact .inr ⟨rfl, rfl, rfl⟩
  · cases r with
    | planner | monitor => exact .inr ⟨rfl, rfl, rfl⟩
    | scamp =>
      -- the entry is not older than the message with which the operator took over
      have hLater := hStick.told.ordered.le_of_ready hReady _ hGot
      have hKept : ∀ (field : Option Mode) (last : Mode), Harmless field → last = .filteredRc →
          field.getD last = .filteredRc := by
        rintro field last (rfl | rfl) hLast
        · exact hLast
        · rfl
      have hSettled := hStick.settled hManual
      obtain ⟨hRawRudder, hRawWinch⟩ := @Scamp.onControlMode_raw s.scamp mode
        (hKept _ _ (hSettled .rudder (by decide) i mode hLater hMode) hRudder)
        (hKept _ _ (hSettled .winch (by decide) i mode hLater hMode) hWinch)
      exact .inr ⟨hRawRudder, hRawWinch, rfl⟩
  · exact .inr ⟨rfl, rfl, rfl⟩
  · exact .inl ⟨b, rfl, Scamp.byStick hRudder hWinch hOther hu⟩
  · exact .inr ⟨rfl, rfl, rfl⟩

/-- **The stick has the boat.** In every run in which no challenge with a state machine is started
while the operator has taken over, and the page gives rudder and winch to nobody else meanwhile:
from the moment on at which `SCAMP` is given the message with which the operator took over, and
until the switch is released, `SCAMP` keeps to `FILTERED_RC`, and nothing but an SBUS message sets
the rudder or the volts of the winch, whatever the other nodes send and however late `SCAMP` gets
it. -/
theorem stick_has_the_boat (F : Formats) (atan2 : Fp → Fp → Fp) (v : Bool) (start : Int)
    (planner : LinePlan R) (file : Option ZeroingConstants) (as : List (HelmAction R))
    (hLeaves : Along (step F atan2 v) LeavesStick (init F start planner file) as) :
    Along (step F atan2 v) (StickMoves F atan2 v) (init F start planner file) as :=
  along_of_inv (fun _ _ _ hStick hLeaves hstep => step_stickInv hStick hLeaves hstep)
    (fun _ _ hStick _ => hStick.stickMoves) (init_stickInv F start planner file) hLeaves

/-- The operator takes over, and `SCAMP` gets an SBUS message. -/
theorem stick_has_the_boat_turned :
    Along (step .exact (fun _ _ => .num 0) false) (StickMoves .exact (fun _ _ => .num 0) false)
      (init .exact 0 (LinePlan.zeroed : LinePlan (Double .exact .atZero)) none)
      [.manager (.sbus [1023, 1023, 200]), .give .scamp 0,
        .scamp (.sbus [1023, 1023, 200, 1223])] :=
  stick_has_the_boat .exact _ false 0 _ none _
    (along_cons rfl trivial (along_cons rfl trivial ⟨trivial, fun _ _ => trivial⟩))

-- ---------------------------------------------------------------------------
-- The planner
-- ---------------------------------------------------------------------------

/-- The target is not lost in an `Iterate`, and while the manager steers the page does not switch
the tacker on. -/
def LeavesTacker (s : Helm R) : HelmAction R → Prop
  | .manager a => KeepsTarget s.manager a
  | .page mode => s.manager.Steering → mode.tacker = none ∨ mode.tacker = some .disabled
  | _ => True

/-- While the manager steers, the last tacker in the queue is `DISABLED`. -/
structure SteersInv (s : Helm R) : Prop where
  told  : Told s
  steer : s.manager.Steering → latest (·.tacker) .linePlan s.modes.sent = .disabled

/-- Every step that leaves the tacker off keeps it off while the manager steers. -/
theorem step_steersInv (hSteers : SteersInv s) (hLeaves : LeavesTacker s a)
    (h : step F atan2 v s a = some t) : SteersInv t := by
  refine ⟨step_told hSteers.told h, ?_⟩
  rcases step_cases h with ⟨b, m, rfl, hm, rfl⟩ | ⟨mode, rfl, rfl⟩ |
    ⟨r, i, mode, rfl, -, -, rfl⟩ | ⟨b, u, -, -, -, rfl⟩ | ⟨b, u, -, -, -, rfl⟩ | ⟨b, -, -, rfl⟩
  · intro hSteering
    show latest _ _ (s.modes.sent ++ s.manager.newModes m) = _
    rw [latest_append]
    rcases WaypointManager.newModes_of_steering hLeaves hm hSteering with ⟨hBefore, hNone⟩ |
      ⟨mode, hModes, hTacker⟩
    · rw [hSteers.steer hBefore]
      exact latest_of_forall fun mode hMode => .inl (hNone mode hMode)
    · rw [hModes]
      show mode.tacker.getD _ = _
      rw [hTacker]
      rfl
  · intro hSteering
    show latest _ _ (s.modes.sent ++ [mode]) = _
    rw [latest_concat, hSteers.steer hSteering]
    rcases hLeaves hSteering with hNone | hOff
    · rw [hNone]
      rfl
    · rw [hOff]
      rfl
  · cases r <;> exact hSteers.steer
  · exact hSteers.steer
  · exact hSteers.steer
  · exact hSteers.steer

/-- The manager steers and the planner was given the last message for the tacker; no step of the
planner publishes a heading. -/
def PlannerSilent (F : Formats) (atan2 : Fp → Fp → Fp) (v : Bool) (s : Helm R) (a : HelmAction R) :
    Prop :=
  s.manager.Steering → s.modes.Informed (·.tacker) .planner →
    ∀ t, step F atan2 v s a = some t → t.planner.headingQueue = s.planner.headingQueue

/-- A planner that was told so publishes no heading. -/
theorem SteersInv.plannerSilent (hSteers : SteersInv s) : PlannerSilent F atan2 v s a := by
  intro hSteering hInformed t h
  have hOff : s.planner.tackMode = .disabled := by
    rw [hSteers.told.planner, hSteers.told.ordered.latest_received_eq hInformed,
      hSteers.steer hSteering]
  rcases step_cases h with ⟨b, m, -, -, rfl⟩ | ⟨mode, -, rfl⟩ | ⟨r, i, mode, -, -, -, rfl⟩ |
    ⟨b, u, -, hOther, hu, rfl⟩ | ⟨b, u, -, -, -, rfl⟩ | ⟨b, -, -, rfl⟩
  · rfl
  · rfl
  · cases r <;> rfl
  · rcases LinePlan.keeps_cases hu with hKeeps | ⟨mode, rfl, -⟩ | ⟨-, hMode, -⟩
    · exact hKeeps.2
    · cases hOther
    · exact absurd (hOff.symm.trans hMode) (by decide)
  · rfl
  · rfl

/-- **One node steers.** In every run in which no `Iterate` of the manager finds its target lost
and the page does not switch the tacker on while the manager steers: whenever the manager is in a
state that publishes headings and the planner was given the last message for the tacker, no step of
the planner publishes one. -/
theorem planner_silent (F : Formats) (atan2 : Fp → Fp → Fp) (v : Bool) (start : Int)
    (planner : LinePlan R) (file : Option ZeroingConstants) (as : List (HelmAction R))
    (hLeaves : Along (step F atan2 v) LeavesTacker (init F start planner file) as) :
    Along (step F atan2 v) (PlannerSilent F atan2 v) (init F start planner file) as :=
  along_of_inv (fun _ _ _ hSteers hLeaves hstep => step_steersInv hSteers hLeaves hstep)
    (fun _ _ hSteers _ => hSteers.plannerSilent)
    ⟨init_told F start planner file, fun hSteering => absurd hSteering id⟩ hLeaves

/-- The manager starts to keep its station and the planner gets its message. -/
theorem planner_silent_station :
    Along (step .exact (fun _ _ => .num 0) false) (PlannerSilent .exact (fun _ _ => .num 0) false)
      (init .exact 0 (LinePlan.zeroed : LinePlan (Double .exact .atZero)) none)
      [.manager (.challengeControl (some .stationKeep)),
        .manager (.tackerState { done := some true }), .manager (.iterate 0 0), .give .planner 1,
        .planner .iterate] :=
  planner_silent .exact _ false 0 _ none _
    (along_cons rfl trivial (along_cons rfl trivial (along_cons rfl
      (show KeepsTarget _ (.iterate 0 0) by decide)
      (along_cons rfl trivial ⟨trivial, fun _ _ => trivial⟩))))

end Run

end Helm

end Sailbot.Control
