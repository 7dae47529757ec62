import Sailbot.Control.ActuatorCmd
import Sailbot.Lib.Latest
import Sailbot.Lib.Watchdog

/-!
# The monitor

`Monitor` (`management/monitor.h`, `management/monitor.cc`) tells on the CAN bus which modes the
boat is in and which connections it has. Every handler and every `Iterate` is one step; times are
in nanoseconds.

* `Monitor.step`            — the handlers and `Iterate`.
* `Monitor.monitor_reports` — what an `Iterate` tells, after any messages.
-/

namespace Sailbot

open Control Lib

/-- `SailbotState`; all its fields are set. -/
structure SailbotState where
  rigid   : Mode := .disable
  ballast : Mode := .disable
  winch   : Mode := .disable
  rudder  : Mode := .disable
  tacker  : Tacker := .none
  deriving DecidableEq, Repr

/-- `SailbotConn.ConnectionState`. -/
inductive ConnectionState
  | good
  | bad
  | unknown
  deriving DecidableEq, Repr

structure SailbotConn where
  rigidConn  : ConnectionState
  radioConn  : ConnectionState := .unknown
  wifiConn   : ConnectionState := .unknown
  jetsonConn : ConnectionState := .unknown
  uiConn     : ConnectionState
  deriving DecidableEq, Repr

inductive MonitorMsg
  | connectionStatus (connected : Bool)
  | controlMode (mode : ControlMode)
  /-- `rigid_wing_feedback`, with the time at which it is handled. -/
  | rigidWingFeedback (now : Int)
  | iterate (now : Int)

structure Monitor where
  uiConnection    : Bool := false
  rigidConnection : Bool := false
  lastRigidConn   : Int := 0
  state           : SailbotState := {}
  stateQueue      : List SailbotState := []
  connectionQueue : List SailbotConn := []

namespace Monitor

/-- `kRigidTimeout`, five seconds. -/
def kRigidTimeout : Int := 5 * 10 ^ 9

def onControlMode (s : Monitor) (mode : ControlMode) : Monitor :=
  { s with state := {
      rigid := mode.rigidMode.getD s.state.rigid
      winch := mode.winchMode.getD s.state.winch
      rudder := mode.rudderMode.getD s.state.rudder
      ballast := mode.ballastMode.getD s.state.ballast
      tacker := mode.tacker.getD s.state.tacker } }

def connection (connected : Bool) : ConnectionState := if connected then .good else .bad

/-- The connection to the rigid wing is lost only here. -/
def iterate (s : Monitor) (now : Int) : Monitor :=
  let rigidConnection :=
    if now > s.lastRigidConn + kRigidTimeout then false else s.rigidConnection
  { s with
    rigidConnection := rigidConnection
    stateQueue := s.stateQueue ++ [s.state]
    connectionQueue := s.connectionQueue ++ [{
      rigidConn := connection rigidConnection
      uiConn := connection s.uiConnection }] }

def step (s : Monitor) : MonitorMsg → Monitor
  | .connectionStatus connected => { s with uiConnection := connected }
  | .controlMode mode => s.onControlMode mode
  | .rigidWingFeedback now => { s with lastRigidConn := now, rigidConnection := true }
  | .iterate now => s.iterate now

-- ---------------------------------------------------------------------------
-- What was received
-- ---------------------------------------------------------------------------

/-- The modes of a message. -/
def mode? : MonitorMsg → Option ControlMode
  | .controlMode mode => some mode
  | _ => none

def connected? : MonitorMsg → Option Bool
  | .connectionStatus connected => some connected
  | _ => none

/-- What is told or asked of the rigid wing. -/
def wing? : MonitorMsg → Option WatchdogMsg
  | .rigidWingFeedback now => some (.heard now)
  | .iterate now => some (.check now)
  | _ => none

/-- The state that the messages `as` lead to. -/
def after (as : List MonitorMsg) : Monitor := as.foldl step {}

@[simp] theorem after_concat (as : List MonitorMsg) (a : MonitorMsg) :
    after (as ++ [a]) = (after as).step a := List.foldl_concat ..

/-- The modes that were set last, as the boat starts with none. -/
def told (modes : List ControlMode) : SailbotState where
  rigid := latest (·.rigidMode) .disable modes
  ballast := latest (·.ballastMode) .disable modes
  winch := latest (·.winchMode) .disable modes
  rudder := latest (·.rudderMode) .disable modes
  tacker := latest (·.tacker) .none modes

/-- A mode message updates what was told. -/
theorem onControlMode_told {s : Monitor} {modes : List ControlMode} (h : s.state = told modes)
    (mode : ControlMode) : (s.onControlMode mode).state = told (modes ++ [mode]) := by
  simp only [onControlMode, h, told, latest_concat]

/-- The modes are those that the mode messages have told. -/
theorem state_eq_told (as : List MonitorMsg) : (after as).state = told (as.filterMap mode?) := by
  induction as using List.reverseRecOn with
  | nil => rfl
  | append_singleton as a ih =>
    rw [after_concat, List.filterMap_append]
    cases a with
    | controlMode mode => exact onControlMode_told ih mode
    | connectionStatus _ | rigidWingFeedback _ | iterate _ =>
      exact ih.trans (congrArg told (List.append_nil _).symm)

/-- The connection is as the last message about it says. -/
theorem uiConnection_eq_latest (as : List MonitorMsg) :
    (after as).uiConnection = latest connected? false as := by
  induction as using List.reverseRecOn with
  | nil => rfl
  | append_singleton as a ih =>
    rw [after_concat, latest_concat, ← ih]
    cases a <;> rfl

/-- The flag for the rigid wing. -/
def watchdog (s : Monitor) : Watchdog where
  alive := s.rigidConnection
  last := s.lastRigidConn

/-- An `Iterate` is a check of the watchdog. -/
theorem iterate_watchdog (s : Monitor) (now : Int) :
    (s.iterate now).watchdog = s.watchdog.step kRigidTimeout (.check now) := by
  rw [Watchdog.step]
  split
  · next hLate => exact congrArg₂ Watchdog.mk (if_pos hLate) rfl
  · next hSoon => exact congrArg₂ Watchdog.mk (if_neg hSoon) rfl

/-- The watchdog is told of the wing's messages and of the rounds. -/
theorem watchdog_after (as : List MonitorMsg) :
    (after as).watchdog = Watchdog.after kRigidTimeout (as.filterMap wing?) := by
  induction as using List.reverseRecOn with
  | nil => rfl
  | append_singleton as a ih =>
    rw [after_concat, List.filterMap_append]
    cases a with
    | connectionStatus _ | controlMode _ =>
      exact ih.trans (congrArg (Watchdog.after _) (List.append_nil _).symm)
    | rigidWingFeedback now => exact (Watchdog.after_concat _ _ (.heard now)).symm
    | iterate now =>
      refine (iterate_watchdog _ now).trans ?_
      rw [ih]
      exact (Watchdog.after_concat _ _ (.check now)).symm

-- ---------------------------------------------------------------------------
-- What is told
-- ---------------------------------------------------------------------------

/-- The connection is shown as good, if and only if there is one. -/
theorem connection_eq_good_iff (connected : Bool) :
    connection connected = .good ↔ connected = true := by
  cases connected <;> decide

/-- The watchdog hears the messages of the wing. -/
theorem heard_mem_iff {as : List MonitorMsg} {t : Int} :
    .heard t ∈ as.filterMap wing? ↔ .rigidWingFeedback t ∈ as := by
  rw [List.mem_filterMap]
  constructor
  · rintro ⟨a, ha, hWing⟩
    cases a with
    | rigidWingFeedback now =>
      cases hWing
      exact ha
    | connectionStatus _ | controlMode _ | iterate _ => cases hWing
  · exact fun ha => ⟨_, ha, rfl⟩

/-- **The monitor tells what holds.** After any messages, an `Iterate` tells for each mode the
value that was set last; that the page is connected, if and only if the last connection status said
so; and that the rigid wing is, if and only if it was heard of in the last five seconds. -/
theorem monitor_reports (as : List MonitorMsg) (now : Int)
    (hClock : Watchdog.ClockForward ((as ++ [MonitorMsg.iterate now]).filterMap wing?)) :
    ∃ conn : SailbotConn,
      ((after as).iterate now).stateQueue =
        (after as).stateQueue ++ [told (as.filterMap mode?)] ∧
      ((after as).iterate now).connectionQueue = (after as).connectionQueue ++ [conn] ∧
      (conn.uiConn = .good ↔ latest connected? false as = true) ∧
      (conn.rigidConn = .good ↔ ∃ t, .rigidWingFeedback t ∈ as ∧ now ≤ t + kRigidTimeout) := by
  rw [List.filterMap_append] at hClock
  refine ⟨_, ?_, rfl, ?_, ?_⟩
  · rw [← state_eq_told]
    rfl
  · rw [← uiConnection_eq_latest]
    exact connection_eq_good_iff _
  · have hAfter : ((after as).iterate now).watchdog =
        Watchdog.after kRigidTimeout (as.filterMap wing? ++ [.check now]) := by
      rw [iterate_watchdog, watchdog_after, Watchdog.after_concat]
    have hAlive := @Watchdog.alive_iff kRigidTimeout _ _ hClock
    rw [← hAfter] at hAlive
    refine (connection_eq_good_iff _).trans (hAlive.trans ?_)
    simp only [heard_mem_iff]

/-- The wing is heard of, and seven seconds later it is lost. -/
theorem monitor_reports_lost :
    ∃ conn : SailbotConn,
      ((after [.rigidWingFeedback 0, .connectionStatus true,
        .iterate (3 * 10 ^ 9)]).iterate (7 * 10 ^ 9)).connectionQueue =
        [⟨.good, .unknown, .unknown, .unknown, .good⟩] ++ [conn] ∧
      conn.uiConn = .good ∧ conn.rigidConn ≠ .good := by
  obtain ⟨conn, -, hConn, hUi, hRigid⟩ := monitor_reports
    [.rigidWingFeedback 0, .connectionStatus true, .iterate (3 * 10 ^ 9)] (7 * 10 ^ 9)
    (by unfold Watchdog.ClockForward; decide)
  refine ⟨conn, hConn, hUi.mpr rfl, ?_⟩
  intro hGood
  obtain ⟨t, ht, hSoon⟩ := hRigid.mp hGood
  obtain rfl : t = 0 := by simpa using ht
  exact absurd hSoon (by decide)

end Monitor

end Sailbot
